import GlitchRuntime.EvmAccounts.Mapping
import GlitchRuntime.Lib.Pairing
import GlitchRuntime.Lib.Runs

/-! # The mapping is a bijection

The two tables of the pallet represent one partial bijection: a claim adds a pair, a kill removes
one, and a merge that kills only removes some. No padded account is ever paired, so the padded
accounts complete it to an injective map of all addresses.
-/

namespace GlitchRuntime.EvmAccounts

open Lib

variable {substrate : Accounts AccountId32} {crypto : Crypto}

/-- The tables are the two directions of some pairs. -/
structure Represents (state : State substrate) (pairs : EvmAddress ≃. AccountId32) : Prop where
  forward : state.accounts = pairs
  backward : state.evmAddresses = pairs.symm

section steps

variable {state after : State substrate} {pairs : EvmAddress ≃. AccountId32}

/-- A killed account loses its pair, if it has one. -/
theorem onKilledAccount_represents (represents : Represents state pairs) (who : AccountId32) :
    ∃ rest ≤ pairs, Represents (onKilledAccount state who) rest := by
  cases mapped : state.evmAddresses who with
  | none =>
    refine ⟨pairs, le_refl _, ?_⟩
    simpa only [onKilledAccount, mapped] using represents
  | some address =>
    have paired : pairs address = some who := by
      rw [represents.backward] at mapped
      exact pairs.eq_some_iff.mp mapped
    refine ⟨pairs.erase address, pairs.erase_le address, ?_⟩
    constructor
    · simp [onKilledAccount, mapped, represents.forward]
    · simp [onKilledAccount, mapped, represents.backward, pairs.coe_symm_erase paired]

theorem foldl_onKilledAccount_represents (represents : Represents state pairs)
    (killed : List AccountId32) :
    ∃ rest ≤ pairs, Represents (killed.foldl onKilledAccount state) rest := by
  induction killed generalizing state pairs with
  | nil => exact ⟨pairs, le_refl _, represents⟩
  | cons who others ih =>
    obtain ⟨fewer, lessFirst, first⟩ := onKilledAccount_represents represents who
    obtain ⟨rest, lessRest, last⟩ := ih first
    exact ⟨rest, lessRest.trans lessFirst, last⟩

/-- A merge may only lose pairs, those of the accounts that die of it. -/
theorem mergePadded_represents (represents : Represents state pairs) {who : AccountId32}
    {address : EvmAddress} {nonce : ℕ}
    (success : mergePadded state who address = .ok (after, nonce)) :
    ∃ rest ≤ pairs, Represents after rest := by
  obtain ⟨-, rfl, -⟩ | ⟨-, merged, joined, -, rfl⟩ := mergePadded_ok success
  · exact ⟨pairs, le_refl _, represents⟩
  · obtain ⟨_, system, killed, -, -, rfl⟩ := mergeAccount_ok joined
    have moved : Represents { state with system := system } pairs :=
      ⟨represents.forward, represents.backward⟩
    obtain ⟨rest, fewer, kept⟩ := foldl_onKilledAccount_represents moved killed
    exact ⟨rest, fewer, kept.forward, kept.backward⟩

/-- A claim pairs the address with the signer. -/
theorem claimAccount_represents (represents : Represents state pairs) {who : AccountId32}
    {address : EvmAddress} {signature : EcdsaSignature}
    (success : claimAccount crypto state who address signature = .ok after) :
    ∃ rest ≤ pairs, ∃ freeLeft freeRight,
      Represents after (rest.insert address who freeLeft freeRight) := by
  obtain ⟨unmapped, unclaimed, merged, nonce, absorbed, -, forward, backward⟩ :=
    claimAccount_ok success
  obtain ⟨rest, fewer, kept⟩ := mergePadded_represents represents absorbed
  have freeLeft : rest address = none := by
    apply (PEquiv.eq_none_of_le fewer).1
    rw [← represents.forward, unclaimed]
  have freeRight : rest.symm who = none := by
    apply (PEquiv.eq_none_of_le fewer).2
    rw [← represents.backward, unmapped]
  have stillUnmapped : merged.evmAddresses who = none := by rw [kept.backward, freeRight]
  refine ⟨rest, fewer, freeLeft, freeRight, ?_⟩
  constructor
  · simp [forward, stillUnmapped, kept.forward]
  · simp [backward, kept.backward]

end steps

/-! ## Runs of claims and kills -/

/-- What can happen to the pallet: a claim, a death outside of it, or anything else that the
runtime does to its accounts. -/
inductive Call (substrate : Accounts AccountId32)
  | claimAccount (who : AccountId32) (address : EvmAddress) (signature : EcdsaSignature)
  | onKilledAccount (who : AccountId32)
  | system (next : substrate.Store)

/-- The pallet as a machine, without receipts. -/
def pallet (crypto : Crypto) (substrate : Accounts AccountId32) :
    Machine (State substrate) (Call substrate) Error Empty where
  step state call :=
    match call with
    | .claimAccount who address signature =>
      (claimAccount crypto state who address signature).map fun after => (after, [])
    | .onKilledAccount who => .ok (onKilledAccount state who, [])
    | .system next => .ok ({ state with system := next }, [])

/-- No account is mapped yet. -/
def Unmapped (state : State substrate) : Prop :=
  (∀ address, state.accounts address = none) ∧ ∀ who, state.evmAddresses who = none

/-- Nobody signs for a padded account. -/
def Call.SignerUnpadded : Call substrate → Prop
  | .claimAccount who _ _ => ∀ address, who ≠ paddedAccount address
  | _ => True

/-- The states that claims, kills and other changes reach, no padded account signing. -/
def Reachable (crypto : Crypto) (state : State substrate) : Prop :=
  ∃ log, (pallet crypto substrate).Reachable Unmapped Call.SignerUnpadded state log

/-- The tables represent pairs among which no padded account is. -/
def Mapped (state : State substrate) : Prop :=
  ∃ pairs, Represents state pairs ∧ ∀ address other, pairs address ≠ some (paddedAccount other)

/-- One step keeps the tables inverse and apart from the padded accounts. -/
theorem step_mapped {state next : State substrate} {call : Call substrate} {out : List Empty}
    (mapped : Mapped state) (unpadded : call.SignerUnpadded)
    (taken : (pallet crypto substrate).step state call = .ok (next, out)) : Mapped next := by
  obtain ⟨pairs, represents, apart⟩ := mapped
  have apartFewer {rest : EvmAddress ≃. AccountId32} (fewer : rest ≤ pairs)
      (address other : EvmAddress) : rest address ≠ some (paddedAccount other) := by
    intro paired
    exact apart address other (fewer _ _ paired)
  cases call with
  | claimAccount who address signature =>
    cases claimed : claimAccount crypto state who address signature with
    | error problem => simp [pallet, claimed, Except.map] at taken
    | ok after =>
      obtain ⟨rfl, -⟩ : after = next ∧ [] = out := by
        simpa [pallet, claimed, Except.map] using taken
      obtain ⟨rest, fewer, freeLeft, freeRight, paired⟩ :=
        claimAccount_represents represents claimed
      refine ⟨_, paired, ?_⟩
      intro claimedAddress other
      rw [PEquiv.coe_insert, Function.update_apply]
      split_ifs
      · intro same
        exact unpadded other (Option.some.inj same)
      · exact apartFewer fewer claimedAddress other
  | onKilledAccount who =>
    obtain ⟨rfl, -⟩ : onKilledAccount state who = next ∧ [] = out := by
      simpa [pallet] using taken
    obtain ⟨rest, fewer, kept⟩ := onKilledAccount_represents represents who
    exact ⟨rest, kept, apartFewer fewer⟩
  | system store =>
    obtain ⟨rfl, -⟩ : { state with system := store } = next ∧ [] = out := by
      simpa [pallet] using taken
    exact ⟨pairs, ⟨represents.forward, represents.backward⟩, apart⟩

/-- Every reachable state is mapped without padded accounts. -/
theorem Reachable.mapped {state : State substrate} (reached : Reachable crypto state) :
    Mapped state := by
  obtain ⟨log, reached⟩ := reached
  refine Machine.Reachable.invariant (fun state _ => Mapped state) reached ?_ ?_
  · intro source unmapped
    refine ⟨⊥, ⟨?_, ?_⟩, ?_⟩
    · funext address
      exact unmapped.1 address
    · funext who
      exact unmapped.2 who
    · simp
  · intro current next log out call mapped unpadded taken
    exact step_mapped mapped unpadded taken

/-- In every reachable state the two tables are inverse to each other, and no two addresses, mapped
or not, control the same account. -/
theorem mapping_bijective {state : State substrate} (reached : Reachable crypto state) :
    (∀ address who, state.accounts address = some who ↔ state.evmAddresses who = some address) ∧
      Function.Injective (intoAccountId state) := by
  obtain ⟨pairs, represents, apart⟩ := reached.mapped
  constructor
  · intro address who
    rw [represents.forward, represents.backward]
    exact pairs.eq_some_iff.symm
  · have resolved : intoAccountId state = pairs.resolve paddedAccount := by
      funext address
      simp only [intoAccountId, PEquiv.resolve, represents.forward]
      cases pairs address <;> rfl
    rw [resolved]
    exact pairs.resolve_injective paddedAccount_injective apart

/-- A claim that kills the padded account, and the death of an unmapped one. -/
def oneClaim : List (Call smallChain) :=
  [.claimAccount user userKey default, .onKilledAccount default]

theorem user_unpadded (address : EvmAddress) : user ≠ paddedAccount address := by
  intro same
  have bytes : user.toList =
      paddedMarker.toList ++ address.toList ++ (Vector.replicate 8 0 : Bytes 8).toList := by
    rw [same]
    change (paddedMarker ++ address ++ (Vector.replicate 8 0 : Bytes 8) : Bytes (4 + 20 + 8)).toList
      = _
    rw [Vector.toList_append, Vector.toList_append]
  have first := congrArg List.head? bytes
  simp [user, paddedMarker] at first

/-- After the claim the user and the key are mapped to each other. -/
theorem oneClaim_bijective :
    let state := ((pallet oneKey smallChain).outcome (beforeClaim 1 5) oneClaim).1
    state.accounts userKey = some user ∧
      (∀ address who, state.accounts address = some who ↔
        state.evmAddresses who = some address) ∧ Function.Injective (intoAccountId state) := by
  have unpadded : ∀ call ∈ oneClaim, call.SignerUnpadded := by
    simp [oneClaim, Call.SignerUnpadded, user_unpadded]
  have begins : Unmapped (beforeClaim 1 5) := ⟨fun _ => rfl, fun _ => rfl⟩
  have happens : ((pallet oneKey smallChain).replay (beforeClaim 1 5) oneClaim).isOk = true := by
    decide +kernel
  exact ⟨by decide +kernel,
    mapping_bijective ⟨_, Machine.outcome_reachable begins unpadded happens⟩⟩

end GlitchRuntime.EvmAccounts

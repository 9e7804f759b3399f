import GlitchRuntime.EvmAccounts.Mapping
import GlitchRuntime.Lib.Storage

/-! # Funds across a claim

A claim runs in nested storage transactions: its writes are taken back when the merge is refused,
the unreserve and the two tables included. When it goes through, the signer has what the padded
account had and nobody else notices.
-/

namespace GlitchRuntime.EvmAccounts

open Lib

variable {substrate : Accounts AccountId32} {crypto : Crypto}

/-! ## The claim on storage -/

/-- `#[transactional] merge_account`: the writes one by one. -/
def mergeAccountStored (source dest : AccountId32) : Action Error (State substrate) Unit :=
  Action.transactional do
    modify fun state => { state with
      system := substrate.unreserve state.system source
        (substrate.reservedBalance state.system source) }
    let state ← get
    let (system, killed) ← .ofExcept ((substrate.transfer state.system source dest
      (substrate.freeBalance state.system source)).mapError .currency)
    modify fun state => killed.foldl onKilledAccount { state with system }

/-- Merge the padded account when it has a record, and read its nonce. -/
def mergePaddedStored (who : AccountId32) (address : EvmAddress) :
    Action Error (State substrate) ℕ := do
  let state ← get
  let account := intoAccountId state address
  if (substrate.info state.system account).isSome then
    mergeAccountStored account who
    let state ← get
    modify fun state => { state with system := substrate.decConsumers state.system account }
    pure (substrate.nonce state.system account)
  else pure 0

/-- `with_transaction_result` around all but the first two checks. -/
def claimAccountStored (crypto : Crypto) (who : AccountId32) (ethAddress : EvmAddress)
    (ethSignature : EcdsaSignature) : Action Error (State substrate) Unit := do
  let state ← get
  .ofExcept (ensure (state.evmAddresses who = none) .accountIdHasMapped)
  .ofExcept (ensure (state.accounts ethAddress = none) .ethAddressHasMapped)
  Action.transactional do
    let address ← .ofExcept (okOr
      (ethRecover crypto messageMarker ethSignature (toAsciiHex who.toList) []) .badSignature)
    .ofExcept (ensure (ethAddress = address) .invalidSignature)
    let nonce ← mergePaddedStored who ethAddress
    modify fun state => { state with system := raiseNonce state.system who nonce }
    modify fun state =>
      match state.evmAddresses who with
      | some earlier => { state with accounts := Function.update state.accounts earlier none }
      | none => state
    modify fun state => { state with
      accounts := Function.update state.accounts ethAddress (some who)
      evmAddresses := Function.update state.evmAddresses who (some ethAddress) }

/-- The merge on storage does what the merge does. -/
theorem mergeAccountStored_outcome (state : State substrate) (source dest : AccountId32) :
    (mergeAccountStored source dest).outcome state =
      (fun merged => ((), merged)) <$> (mergeAccount state source dest).mapError .currency := by
  simp only [mergeAccountStored, mergeAccount, Action.outcome_transactional, Action.outcome_bind,
    Action.outcome_modify, Action.outcome_get, Action.outcome_ofExcept, ok_bind]
  cases substrate.transfer
    (substrate.unreserve state.system source (substrate.reservedBalance state.system source))
    source dest (substrate.freeBalance (substrate.unreserve state.system source
      (substrate.reservedBalance state.system source)) source) with
  | error refusal => rfl
  | ok done => rfl

theorem mergePaddedStored_outcome (state : State substrate) (who : AccountId32)
    (address : EvmAddress) :
    (mergePaddedStored who address).outcome state =
      Prod.swap <$> mergePadded state who address := by
  simp only [mergePaddedStored, mergePadded, Action.outcome_bind, Action.outcome_get, ok_bind]
  cases found : substrate.info state.system (intoAccountId state address) with
  | none => rfl
  | some info =>
    rw [Option.isSome_some, if_pos rfl]
    simp only [Action.outcome_bind, mergeAccountStored_outcome]
    cases mergeAccount state (intoAccountId state address) who with
    | error refusal => rfl
    | ok merged => rfl

/-- The claim on storage does what the claim does. -/
theorem claimAccountStored_outcome (state : State substrate) (who : AccountId32)
    (address : EvmAddress) (signature : EcdsaSignature) :
    (claimAccountStored crypto who address signature).outcome state =
      (fun after => ((), after)) <$> claimAccount crypto state who address signature := by
  simp only [claimAccountStored, claimAccount, Action.outcome_bind, Action.outcome_get,
    Action.outcome_ofExcept, Action.outcome_transactional, Action.outcome_modify,
    mergePaddedStored_outcome, ok_bind, bind_map_left, map_bind]
  refine bind_congr fun _ => bind_congr fun _ => bind_congr fun _ => bind_congr fun _ =>
    bind_congr ?_
  rintro ⟨merged, nonce⟩
  simp only [Prod.swap_prod_mk]
  cases merged.evmAddresses who with
  | none => rfl
  | some earlier => rfl

theorem claimAccountStored_run_ok {state after : State substrate} {who : AccountId32}
    {address : EvmAddress} {signature : EcdsaSignature} :
    (claimAccountStored crypto who address signature).run state = .ok () after ↔
      claimAccount crypto state who address signature = .ok after := by
  rw [← Action.outcome_eq_ok, claimAccountStored_outcome]
  cases claimAccount crypto state who address signature <;> simp

/-- A refused claim leaves the storage as it was: only checks stand outside the transaction. -/
theorem claimAccountStored_atomic (who : AccountId32) (address : EvmAddress)
    (signature : EcdsaSignature) :
    (claimAccountStored crypto who address signature :
      Action Error (State substrate) Unit).Atomic := by
  apply Action.atomic_get_bind
  intro state
  apply Action.atomic_ofExcept_bind
  intro _
  apply Action.atomic_ofExcept_bind
  intro _
  exact Action.atomic_transactional _

/-! ## Who has the funds -/

theorem raiseNonce_sameBalances (system : substrate.Store) (who : AccountId32) (nonce : ℕ) :
    substrate.SameBalances system (raiseNonce system who nonce) := by
  unfold raiseNonce
  split_ifs
  · exact substrate.setNonce_sameBalances system who nonce
  · exact .refl system

/-- The merge hands everything over; merged with itself an account only unreserves. -/
theorem mergeAccount_balances {state merged : State substrate} {source dest : AccountId32}
    (success : mergeAccount state source dest = .ok merged) :
    (dest ≠ source → substrate.Inherits state.system merged.system dest source) ∧
      (dest = source → substrate.Unreserves state.system merged.system source) := by
  obtain ⟨_, system, killed, rfl, moved, rfl⟩ := mergeAccount_ok success
  rw [foldl_onKilledAccount_system]
  constructor
  · intro apart
    exact substrate.transfer_unreserved_inherits state.system apart.symm moved
  · intro same
    rw [substrate.transfer_nothing _ _ _ _ (.inr same.symm)] at moved
    obtain ⟨rfl, -⟩ := Prod.mk.inj (Except.ok.inj moved)
    exact substrate.unreserve_all_unreserves state.system source

/-- After its merge a claim moves no more funds. -/
theorem claimAccount_merges {state after : State substrate} {who : AccountId32}
    {address : EvmAddress} {signature : EcdsaSignature}
    (existing : substrate.info state.system (paddedAccount address) ≠ none)
    (success : claimAccount crypto state who address signature = .ok after) :
    ∃ merged, mergeAccount state (paddedAccount address) who = .ok merged ∧
      substrate.SameBalances merged.system after.system := by
  obtain ⟨-, unclaimed, joined, nonce, absorbed, raised, -, -⟩ := claimAccount_ok success
  have resolved : intoAccountId state address = paddedAccount address := by
    simp only [intoAccountId, unclaimed]
  have taken := mergePadded_ok absorbed
  rw [resolved] at taken
  obtain ⟨missing, -, -⟩ | ⟨-, merged, merge, -, rfl⟩ := taken
  · exact absurd missing existing
  · refine ⟨merged, merge, ?_⟩
    rw [raised]
    exact (substrate.decConsumers_sameBalances merged.system _).trans
      (raiseNonce_sameBalances _ who nonce)

/-- A claim of an address whose padded account exists moves all of its funds to the signer, and is
refused without a trace when the transfer is. Only the padded account itself as the signer keeps
them, its reserved balance unreserved. -/
theorem claimAccount_moves_funds (state : State substrate) (who : AccountId32)
    (address : EvmAddress) (signature : EcdsaSignature)
    (existing : substrate.info state.system (paddedAccount address) ≠ none) :
    let padded := paddedAccount address
    let claim := claimAccountStored crypto who address signature
    let unreserved :=
      substrate.unreserve state.system padded (substrate.reservedBalance state.system padded)
    (∀ after, claim.run state = .ok () after →
      (who ≠ padded → substrate.Inherits state.system after.system who padded) ∧
        (who = padded → substrate.Unreserves state.system after.system padded)) ∧
    (∀ problem after, claim.run state = .error problem after → after = state) ∧
    (∀ refusal, substrate.transfer unreserved padded who
        (substrate.freeBalance unreserved padded) = .error refusal →
      ∃ problem, claim.run state = .error problem state) := by
  intro padded claim unreserved
  have atomic : claim.Atomic := claimAccountStored_atomic who address signature
  refine ⟨?_, ?_, ?_⟩
  · intro after success
    obtain ⟨merged, merge, same⟩ :=
      claimAccount_merges existing (claimAccountStored_run_ok.mp success)
    obtain ⟨inherits, unreserves⟩ := mergeAccount_balances merge
    constructor
    · intro apart
      exact (inherits apart).then same
    · intro self
      exact (unreserves self).then same
  · intro problem after refused
    exact atomic state problem after refused
  · intro refusal blocked
    cases ran : claim.run state with
    | ok done after =>
      obtain ⟨merged, merge, -⟩ :=
        claimAccount_merges existing (claimAccountStored_run_ok.mp ran)
      obtain ⟨_, _, _, rfl, moved, -⟩ := mergeAccount_ok merge
      rw [blocked] at moved
      contradiction
    | error problem after =>
      obtain rfl := atomic state problem after ran
      exact ⟨problem, rfl⟩

/-- The small chain with a tenth more on the padded account, reserved. -/
def withReserved : State smallChain :=
  let chain := beforeClaim 1 5
  { chain with
    system := chain.system.put (paddedAccount userKey) (some ⟨5, 0, 1, 0, 10 ^ 18, 10 ^ 17⟩) }

/-- The user's claim goes through, and the user has both balances of the padded account. -/
theorem claimAccount_moves_funds_user :
    let claim := claimAccountStored oneKey user userKey default
    (claim.outcome withReserved).isOk = true ∧ ∀ after, claim.run withReserved = .ok () after →
      smallChain.Inherits withReserved.system after.system user (paddedAccount userKey) := by
  intro claim
  refine ⟨by decide +kernel, ?_⟩
  intro after success
  have moves := (claimAccount_moves_funds withReserved user userKey default
    (by decide +kernel)).1 after success
  exact moves.1 (by decide +kernel)

/-- The small chain after the padded account itself has claimed the key. -/
def afterSelfClaim : State smallChain :=
  match claimAccount oneKey (beforeClaim 1 5) (paddedAccount userKey) userKey default with
  | .ok after => after
  | .error _ => beforeClaim 1 5

/-- The padded account claims its own address and keeps its balance. -/
theorem claimAccount_self_keeps_funds :
    ¬ ∀ (state after : State smallChain) (who : AccountId32) (address : EvmAddress)
      (signature : EcdsaSignature), smallChain.info state.system (paddedAccount address) ≠ none →
        (claimAccountStored oneKey who address signature).run state = .ok () after →
          smallChain.Inherits state.system after.system who (paddedAccount address) := by
  intro moves
  have success : claimAccount oneKey (beforeClaim 1 5) (paddedAccount userKey) userKey default =
      .ok afterSelfClaim := rfl
  have moved := moves (beforeClaim 1 5) afterSelfClaim (paddedAccount userKey) userKey default
    (by decide +kernel) (claimAccountStored_run_ok.mpr success)
  exact absurd moved.lateFree (by decide +kernel)

end GlitchRuntime.EvmAccounts

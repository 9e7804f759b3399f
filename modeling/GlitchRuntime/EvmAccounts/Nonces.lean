import GlitchRuntime.EvmAccounts.Mapping

/-! # Nonces across a claim

The signer should take over the nonce of the padded account when that is larger. The nonce is read
after the merge, and a merge that takes the last thing keeping the padded account alive removes its
record, so the nonce of such an account reads zero and is lost.
-/

namespace GlitchRuntime.EvmAccounts

open Lib

variable {substrate : Accounts AccountId32} {crypto : Crypto}

/-- Merging the account removes its record: its balance is all that keeps it. -/
def MergeReaps (state : State substrate) (source dest : AccountId32) : Prop :=
  source ≠ dest ∧ 0 < (substrate.record state.system source).total ∧
    (substrate.record state.system source).LastProvider

/-- The EVM nonce of an address, that of the account it resolves to. -/
def evmNonce (state : State substrate) (address : EvmAddress) : ℕ :=
  substrate.nonce state.system (intoAccountId state address)

/-- The claim keeps the larger of the two nonces, so the nonce of the address does not fall. -/
def KeepsNonce (before after : State substrate) (who : AccountId32) (address : EvmAddress) : Prop :=
  substrate.nonce after.system who =
      max (substrate.nonce before.system who)
        (substrate.nonce before.system (paddedAccount address)) ∧
    evmNonce before address ≤ evmNonce after address

/-- The merged account keeps its nonce unless it is removed; the other one always does. -/
theorem mergeAccount_nonces {state merged : State substrate} {source dest : AccountId32}
    (success : mergeAccount state source dest = .ok merged) :
    (MergeReaps state source dest → substrate.nonce merged.system source = 0) ∧
      (¬ MergeReaps state source dest →
        substrate.nonce merged.system source = substrate.nonce state.system source) ∧
      substrate.nonce merged.system dest = substrate.nonce state.system dest := by
  obtain ⟨unreserved, system, killed, emptied, moved, rfl⟩ := mergeAccount_ok success
  have before : substrate.record unreserved source = { substrate.record state.system source with
      free := (substrate.record state.system source).total
      reserved := 0 } := by
    rw [emptied]
    exact substrate.record_unreserve_all _ _
  have kept (account : AccountId32) :
      substrate.nonce unreserved account = substrate.nonce state.system account := by
    rw [emptied]
    exact substrate.nonce_unreserve_all _ _ _
  have balance : substrate.freeBalance unreserved source =
      (substrate.record state.system source).total := by
    rw [AccountOps.freeBalance, before]
  have unlocked : substrate.reservedBalance unreserved source = 0 := by
    rw [AccountOps.reservedBalance, before]
  have sameProvider : (substrate.record unreserved source).LastProvider ↔
      (substrate.record state.system source).LastProvider := by
    rw [before]
    rfl
  simp only [foldl_onKilledAccount_system]
  by_cases nothing : substrate.freeBalance unreserved source = 0 ∨ source = dest
  · rw [substrate.transfer_nothing _ _ _ _ nothing] at moved
    obtain ⟨rfl, rfl⟩ := Prod.mk.inj (Except.ok.inj moved)
    refine ⟨?_, fun _ => kept source, kept dest⟩
    rintro ⟨apart, funded, -⟩
    rcases nothing with empty | same
    · omega
    · contradiction
  · rw [not_or] at nothing
    have empties := substrate.transfer_all _ _ _ _ _ nothing.2 (Nat.pos_of_ne_zero nothing.1)
      unlocked moved
    refine ⟨?_, ?_, empties.targetNonce.trans (kept dest)⟩
    · rintro ⟨-, -, last⟩
      obtain ⟨gone, -⟩ := empties.dies (sameProvider.mpr last)
      rw [AccountOps.nonce, AccountOps.record, gone]
      rfl
    · intro survives
      have more : ¬ (substrate.record unreserved source).LastProvider := by
        intro last
        exact survives ⟨nothing.2, balance ▸ Nat.pos_of_ne_zero nothing.1, sameProvider.mp last⟩
      obtain ⟨left, -⟩ := empties.survives more
      rw [← kept source, AccountOps.nonce, AccountOps.record, left]
      rfl

theorem raiseNonce_nonce (system : substrate.Store) (who : AccountId32) (nonce : ℕ) :
    substrate.nonce (raiseNonce system who nonce) who = max (substrate.nonce system who) nonce := by
  unfold raiseNonce
  split_ifs with smaller
  · rw [substrate.nonce_setNonce, if_pos rfl]
    omega
  · omega

/-- After a claim the signer has the larger of its own nonce and what the merge left of the nonce
of the padded account. -/
theorem claimAccount_nonce {state after : State substrate} {who : AccountId32}
    {address : EvmAddress} {signature : EcdsaSignature}
    (success : claimAccount crypto state who address signature = .ok after) :
    (MergeReaps state (paddedAccount address) who →
      substrate.nonce after.system who = substrate.nonce state.system who) ∧
    (¬ MergeReaps state (paddedAccount address) who →
      substrate.nonce after.system who =
        max (substrate.nonce state.system who)
          (substrate.nonce state.system (paddedAccount address))) := by
  obtain ⟨-, unclaimed, merged, nonce, absorbed, raised, -, -⟩ := claimAccount_ok success
  have resolved : intoAccountId state address = paddedAccount address := by
    simp only [intoAccountId, unclaimed]
  have taken := mergePadded_ok absorbed
  rw [resolved] at taken
  rw [raised, raiseNonce_nonce]
  obtain ⟨missing, rfl, rfl⟩ | ⟨-, joined, merge, rfl, rfl⟩ := taken
  · have empty : substrate.record merged.system (paddedAccount address) = default := by
      rw [AccountOps.record, missing]
      rfl
    refine ⟨fun _ => Nat.max_zero _, ?_⟩
    intro _
    rw [AccountOps.nonce, AccountOps.nonce, empty]
    rfl
  · obtain ⟨reaped, survived, signer⟩ := mergeAccount_nonces merge
    rw [substrate.nonce_decConsumers, signer]
    constructor
    · intro reaps
      rw [reaped reaps, Nat.max_zero]
    · intro survives
      rw [survived survives]

/-- A claim keeps the larger nonce exactly when the merge does not remove a padded account whose
nonce was above the signer's. -/
theorem claimAccount_keepsNonce_iff {state after : State substrate} {who : AccountId32}
    {address : EvmAddress} {signature : EcdsaSignature}
    (success : claimAccount crypto state who address signature = .ok after) :
    KeepsNonce state after who address ↔
      ¬ (MergeReaps state (paddedAccount address) who ∧
        substrate.nonce state.system who <
          substrate.nonce state.system (paddedAccount address)) := by
  obtain ⟨lost, kept⟩ := claimAccount_nonce success
  obtain ⟨-, unclaimed, _, _, -, -, forward, -⟩ := claimAccount_ok success
  have before : evmNonce state address =
      substrate.nonce state.system (paddedAccount address) := by
    simp only [evmNonce, intoAccountId, unclaimed]
  have now : evmNonce after address = substrate.nonce after.system who := by
    simp only [evmNonce, intoAccountId, forward, Function.update_self]
  unfold KeepsNonce
  rw [before, now]
  constructor
  · rintro ⟨larger, -⟩ ⟨reaps, below⟩
    rw [lost reaps] at larger
    omega
  · intro safe
    by_cases reaps : MergeReaps state (paddedAccount address) who
    · have above : substrate.nonce state.system (paddedAccount address) ≤
          substrate.nonce state.system who := Nat.le_of_not_lt fun below => safe ⟨reaps, below⟩
      rw [lost reaps]
      omega
    · rw [kept reaps]
      omega

/-- The small chain after the user's claim of the key. -/
def afterClaim (userNonce paddedNonce : ℕ) : State smallChain :=
  match claimAccount oneKey (beforeClaim userNonce paddedNonce) user userKey default with
  | .ok after => after
  | .error _ => beforeClaim userNonce paddedNonce

/-- A padded account that has sent five transactions is claimed, and its nonce is back at one. -/
theorem claimAccount_loses_nonce :
    ¬ ∀ (state after : State smallChain) (who : AccountId32) (address : EvmAddress)
      (signature : EcdsaSignature), claimAccount oneKey state who address signature = .ok after →
        KeepsNonce state after who address := by
  intro keeps
  have kept := keeps (beforeClaim 1 5) (afterClaim 1 5) user userKey default rfl
  exact absurd kept.1 (by decide +kernel)

/-- The user has sent more transactions than the padded account and keeps its nonce. -/
theorem claimAccount_keepsNonce_above :
    KeepsNonce (beforeClaim 7 5) (afterClaim 7 5) user userKey := by
  apply (claimAccount_keepsNonce_iff (show claimAccount oneKey (beforeClaim 7 5) user userKey
    default = .ok (afterClaim 7 5) from rfl)).mpr
  rintro ⟨-, below⟩
  exact absurd below (by decide +kernel)

end GlitchRuntime.EvmAccounts

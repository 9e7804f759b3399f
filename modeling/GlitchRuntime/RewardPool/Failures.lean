import GlitchRuntime.RewardPool.OneBlock

/-! # Failed withdrawals

A withdrawal that fails outside a storage transaction keeps what it wrote. A claim pays before it
writes, so that a failed one leaves at most the rewards it granted. A removal writes first, and
loses the shares when the payment fails.
-/

namespace GlitchRuntime.RewardPool

open Lib

variable {Account PoolId : Type} {config : Config Account PoolId}
  [DecidableEq PoolId] [DecidableEq Account]

/-- Nothing but the rewards of the pool was booked. -/
def Unharmed (state : State config) (pool : PoolId) (after : State config) : Prop :=
  after = state ∨ Granted state pool after

/-- All of a removal goes through but its payment. -/
def OnlyPaymentLeft (state : State config) (who : Account) (pool : PoolId) : Call → Prop
  | .removeShare amount => (updatePoolReward pool).refusal state = none ∧
      (getRewardsByAccountShares config.existentialReward (accrued state pool)
        (state.poolAccountData pool who) amount).isOk = true
  | .addShare _ | .claimRewards => False

instance (state : State config) (who : Account) (pool : PoolId) (call : Call) :
    Decidable (OnlyPaymentLeft state who pool call) :=
  match call with
  | .removeShare _ => inferInstanceAs (Decidable (_ ∧ _))
  | .addShare _ => inferInstanceAs (Decidable False)
  | .claimRewards => inferInstanceAs (Decidable False)

section

variable {state after : State config} {who : Account} {pool : PoolId} {problem : Error}

omit [DecidableEq PoolId] [DecidableEq Account] in
theorem transfer_atomic (pool : PoolId) (who : Account) (amount : ℕ) :
    Action.Atomic (transfer pool who amount : Action Error (State config) Unit) := by
  apply Action.atomic_get_bind
  intro state
  apply Action.atomic_ofExcept_bind
  intro store
  exact Action.atomic_modify _

omit [DecidableEq PoolId] [DecidableEq Account] in
theorem creditSubAccount_atomic (pool : PoolId) (balanceChange : ℕ) :
    Action.Atomic (creditSubAccount pool balanceChange : Action Error (State config) Unit) := by
  unfold creditSubAccount
  split_ifs with nothing
  · exact Action.atomic_pure _
  · apply Action.atomic_get_bind
    intro state
    apply Action.atomic_ofExcept_bind
    intro store
    exact Action.atomic_modify _

omit [DecidableEq Account] in
/-- A grant that fails writes nothing. -/
theorem updatePoolReward_atomic (pool : PoolId) :
    Action.Atomic (updatePoolReward pool : Action Error (State config) PoolInfo) := by
  apply Action.atomic_get_bind
  intro state
  apply Action.atomic_ofExcept_bind
  rintro ⟨info, change⟩
  apply Action.atomic_bind_of_unrefused (creditSubAccount_atomic pool change)
  intro done before
  rfl

omit [DecidableEq PoolId] [DecidableEq Account] in
/-- A removal that is calculated takes the shares of the account. -/
theorem getRewardsByAccountShares_takes {existentialReward amount reward : ℕ}
    {info left : PoolInfo} {data rest : PoolAccountInfo}
    (computed : getRewardsByAccountShares existentialReward info data amount =
      .ok (left, rest, reward)) :
    0 < amount ∧ amount ≤ data.shares ∧ rest.shares = data.shares - amount := by
  cases getRewardsByAccountShares_booking computed with
  | leftPaid positive _ held => exact ⟨positive, held, rfl⟩
  | leftUnpaid positive _ held => exact ⟨positive, held, rfl⟩

/-! ## When only the payment is left -/

/-- The currency accepts what the account of the pool is credited. -/
def CreditAccepted (state : State config) (pool : PoolId) : Prop :=
  dueReward state pool ≠ 0 → (config.ledger.updateBalance state.store (config.subAccountId pool)
    (min (dueReward state pool) maxAmount : ℕ)).isSome = true

omit [DecidableEq Account] in
/-- The rewards are granted exactly when they can be booked and the credit is accepted. -/
theorem updatePoolReward_refusal_eq_none : (updatePoolReward pool).refusal state = none ↔
    DueFits state pool ∧ CreditAccepted state pool := by
  rw [Action.refusal_eq_none]
  constructor
  · rintro ⟨info, middle, update⟩
    obtain ⟨fits, -, credited, paid, -⟩ := updatePoolReward_eq_ok.mp update
    refine ⟨fits, ?_⟩
    intro granted
    rcases creditSubAccount_eq_ok.mp paid with ⟨nothing, -⟩ | ⟨-, store, accepted, -⟩
    · exact absurd nothing granted
    · rw [accepted]
      rfl
  · rintro ⟨fits, accepted⟩
    by_cases nothing : dueReward state pool = 0
    · exact ⟨_, _, updatePoolReward_eq_ok.mpr
        ⟨fits, rfl, _, creditSubAccount_eq_ok.mpr (.inl ⟨nothing, rfl⟩), rfl⟩⟩
    · obtain ⟨store, accepted⟩ := Option.isSome_iff_exists.mp (accepted nothing)
      exact ⟨_, _, updatePoolReward_eq_ok.mpr
        ⟨fits, rfl, _, creditSubAccount_eq_ok.mpr (.inr ⟨nothing, store, accepted, rfl⟩), rfl⟩⟩

omit [DecidableEq Account] in
/-- Only the payment of a removal is left exactly when the rewards are granted and the account
removes shares that it holds and that are redeemable. -/
theorem onlyPaymentLeft_iff {amount : ℕ} (rewardsFit : (state.pools pool).totalRewards < 2 ^ 128)
    (loanFits : (state.poolAccountData pool who).borrowedAmount < 2 ^ 128) :
    OnlyPaymentLeft state who pool (.removeShare amount) ↔
      (DueFits state pool ∧ CreditAccepted state pool) ∧
        (0 < amount ∧ amount ≤ (state.pools pool).totalShares ∧
          amount ≤ (state.poolAccountData pool who).shares) ∧
        Redeemable (accrued state pool) (state.poolAccountData pool who) amount := by
  rw [OnlyPaymentLeft, updatePoolReward_refusal_eq_none]
  apply and_congr_right
  rintro ⟨dueFits, -⟩
  constructor
  · intro computes
    cases computed : getRewardsByAccountShares config.existentialReward (accrued state pool)
      (state.poolAccountData pool who) amount with
    | error _ =>
      rw [computed] at computes
      contradiction
    | ok result =>
      obtain ⟨info, data, reward⟩ := result
      have booking := getRewardsByAccountShares_booking computed
      refine ⟨?_, booking.redeemable⟩
      cases booking with
      | leftPaid positive inPool held => exact ⟨positive, inPool, held⟩
      | leftUnpaid positive inPool held => exact ⟨positive, inPool, held⟩
  · rintro ⟨⟨positive, inPool, held⟩, redeemable⟩
    have fits : (accrued state pool).totalRewards < 2 ^ 128 := by
      rcases Nat.eq_zero_or_pos (dueReward state pool) with nothing | due
      · rw [accrued, nothing]
        exact rewardsFit
      · exact (dueFits due.ne').1
    obtain ⟨info, data, computed⟩ : ∃ info data, getRewardsByAccountShares config.existentialReward
        (accrued state pool) (state.poolAccountData pool who) amount =
        .ok (info, data, payout _ _ _ _) :=
      getRewardsByAccountShares_of_redeemable positive inPool held fits loanFits redeemable
    rw [computed]
    rfl

/-! ## Where a withdrawal stops -/

/-- A claim that fails has booked at most the rewards of the pool. -/
theorem claimRewards_error
    (failed : (claimRewards who pool).run state = .error problem after) :
    Unharmed state pool after := by
  rcases Action.run_bind_error.mp failed with ungranted | ⟨info, middle, update, rest⟩
  · exact .inl (updatePoolReward_atomic pool _ _ _ ungranted)
  · -- from here on the claim writes after all that can fail
    have stays : after = middle := by
      refine Action.atomic_get_bind ?_ _ _ _ rest
      intro granted
      dsimp only
      split_ifs with nothing
      · exact Action.atomic_pure _
      · apply Action.atomic_ofExcept_bind
        intro rewardWithVirtual
        apply Action.atomic_ofExcept_bind
        intro actualReward
        split_ifs with small
        · exact Action.atomic_pure _
        · apply Action.atomic_ofExcept_bind
          intro totalRewardsUseable
          apply Action.atomic_ofExcept_bind
          intro checked
          apply Action.atomic_bind_of_unrefused (transfer_atomic pool who actualReward)
          intro done before
          rfl
    rw [stays]
    exact .inr (updatePoolReward_granted update).2

/-- The storage that a removal leaves where it fails, by how far it got. -/
inductive FailedRemoval (state : State config) (who : Account) (pool : PoolId) (amount : ℕ) :
    State config → Prop
  | ungranted (refused : (updatePoolReward pool).refusal state ≠ none) :
      FailedRemoval state who pool amount state
  | uncalculated {middle : State config} (grant : Granted state pool middle)
      (refused : (getRewardsByAccountShares config.existentialReward (accrued state pool)
        (state.poolAccountData pool who) amount).isOk = false) :
      FailedRemoval state who pool amount middle
  | unpaid {middle : State config} {info : PoolInfo} {data : PoolAccountInfo} {reward : ℕ}
      (update : (updatePoolReward pool).run state = .ok (accrued state pool) middle)
      (computed : getRewardsByAccountShares config.existentialReward (accrued state pool)
        (state.poolAccountData pool who) amount = .ok (info, data, reward)) :
      FailedRemoval state who pool amount ((middle.setPool pool info).setAccount pool who data)

theorem removeShare_error {amount : ℕ}
    (failed : (removeShare who pool amount).run state = .error problem after) :
    FailedRemoval state who pool amount after := by
  rcases Action.run_bind_error.mp failed with ungranted | ⟨_, middle, update, rest⟩
  · obtain rfl := updatePoolReward_atomic pool _ _ _ ungranted
    apply FailedRemoval.ungranted
    rw [Action.refusal, ungranted]
    simp
  · obtain ⟨rfl, grant⟩ := updatePoolReward_granted update
    simp only [Action.run_bind_error, Action.run_get_error, Action.run_get_ok,
      Action.run_ofExcept_error, Action.run_ofExcept_ok, Action.run_modify_error,
      Action.run_modify_ok, Action.run_pure_error, false_or, and_false, exists_false,
      or_false] at rest
    obtain ⟨_, _, ⟨rfl, rfl⟩, rest⟩ := rest
    rw [grant.accounts] at rest
    obtain ⟨missing, rfl⟩ | ⟨_, _, ⟨held, rfl⟩, ⟨refused, rfl⟩ | ⟨⟨info, data, reward⟩, _,
      ⟨computed, rfl⟩, _, _, rfl, _, _, rfl, sending⟩⟩ := rest
    · apply FailedRemoval.uncalculated grant
      cases computed : getRewardsByAccountShares config.existentialReward (accrued state pool)
        (state.poolAccountData pool who) amount with
      | ok result =>
        exact absurd (getRewardsByAccountShares_takes computed).2.1 (ensure_eq_error.mp missing).1
      | error _ => rfl
    · apply FailedRemoval.uncalculated grant
      rw [refused]
      rfl
    · obtain rfl := transfer_atomic _ _ _ _ _ _ sending
      exact .unpaid update computed

omit [DecidableEq Account] in
/-- What is unharmed keeps the figures of every account. -/
theorem Unharmed.accounts (unharmed : Unharmed state pool after) :
    after.poolAccountData = state.poolAccountData := by
  rcases unharmed with rfl | grant
  · rfl
  · exact grant.accounts

/-- A withdrawal that fails books nothing but the rewards of the pool, exactly when it is not a
removal of which only the payment was left. -/
theorem failed_unharmed_iff {call : Call} (withdraws : ∀ amount, call ≠ .addShare amount)
    (failed : (dispatch who pool call).run state = .error problem after) :
    Unharmed state pool after ↔ ¬ OnlyPaymentLeft state who pool call := by
  cases call with
  | addShare amount => exact absurd rfl (withdraws amount)
  | claimRewards => exact iff_of_true (claimRewards_error failed) id
  | removeShare amount =>
    cases removeShare_error failed with
    | ungranted refused => exact iff_of_true (.inl rfl) fun left => refused left.1
    | uncalculated grant refused =>
      apply iff_of_true (.inr grant)
      intro left
      rw [left.2] at refused
      contradiction
    | unpaid update computed =>
      apply iff_of_false
      · intro unharmed
        obtain ⟨positive, held, taken⟩ := getRewardsByAccountShares_takes computed
        have kept := congrFun (congrFun unharmed.accounts pool) who
        simp only [State.setAccount, Function.update_self] at kept
        rw [kept] at taken
        omega
      · rw [not_not]
        refine ⟨Action.refusal_eq_none.mpr ⟨_, _, update⟩, ?_⟩
        rw [computed]
        rfl

end

/-! ## A pool that cannot pay -/

/-- One share and a block of rewards, and then the account of the pool is emptied elsewhere. -/
def emptiedVault : List (Label (mockPool 30 10)) :=
  [.call .alice () (.addShare 1), .nextBlock, .updatePoolReward (), .elsewhere fun _ => 0]

/-- A claim that cannot be paid leaves everything as it was. -/
theorem emptiedVault_claim : ∃ problem after,
    (dispatch .alice () .claimRewards).run (mockAfter emptiedVault) = .error problem after ∧
      Unharmed (mockAfter emptiedVault) () after := by
  obtain ⟨after, failed⟩ := Action.result_eq_error.mp
    (show (dispatch .alice () .claimRewards).result (mockAfter emptiedVault) = .error .currency by
      decide +kernel)
  exact ⟨.currency, after, failed,
    (failed_unharmed_iff (fun _ => by simp) failed).mpr (by decide +kernel)⟩

/-- A removal that cannot be paid loses the share. -/
theorem emptiedVault_removal :
    ¬ ∀ (log : List (Label (mockPool 30 10))) (state after : State (mockPool 30 10)) (who : Party)
      (amount : ℕ) (problem : Error),
      Machine.Run (pallet (mockPool 30 10)) anyLabel (mockGenesis 30 10) log state →
      (removeShare who () amount).run state = .error problem after → Unharmed state () after := by
  intro unharmed
  obtain ⟨log, run⟩ := mockAfter_reached (show ((pallet (mockPool 30 10)).replay
    (mockGenesis 30 10) emptiedVault).isOk = true by decide +kernel)
  obtain ⟨after, failed⟩ := Action.result_eq_error.mp
    (show (removeShare .alice () 1).result (mockAfter emptiedVault) = .error .currency by
      decide +kernel)
  have kept := congrFun (congrFun (unharmed log _ after .alice 1 .currency run failed).accounts ())
    .alice
  have lost : (match (removeShare .alice () 1).run (mockAfter emptiedVault) with
      | .ok _ left => left.poolAccountData () .alice
      | .error _ left => left.poolAccountData () .alice) ≠
        (mockAfter emptiedVault).poolAccountData () .alice := by
    decide +kernel
  rw [failed] at lost
  exact lost kept

end GlitchRuntime.RewardPool

import GlitchRuntime.RewardPool.OneBlock

/-! # Previews of claims

The preview of a claim calculates the removal of all shares instead. Both come to the worth of the
shares less the loan, but a removal keeps back a reward of exactly the minimum that can be sent,
and a claim sends it.
-/

namespace GlitchRuntime.RewardPool

open Lib FixedU128

variable {Account PoolId : Type} {config : Config Account PoolId}

/-- What a claim on a pool pays. -/
inductive Claimed (existentialReward : ℕ) (info : PoolInfo) (data : PoolAccountInfo) : ℕ → Prop
  | nothingHeld (empty : data.shares = 0) : Claimed existentialReward info data 0
  | tooSmall (held : data.shares ≠ 0)
      (small : info.worth data.shares - data.borrowedAmount < existentialReward) :
      Claimed existentialReward info data 0
  | paid (held : data.shares ≠ 0) (covers : data.borrowedAmount ≤ info.worth data.shares)
      (backed : info.worth data.shares - data.borrowedAmount ≤ info.totalRewardsUseable)
      (sendable : existentialReward ≤ info.worth data.shares - data.borrowedAmount) :
      Claimed existentialReward info data (info.worth data.shares - data.borrowedAmount)

/-- All shares release all of the loan. -/
theorem PoolAccountInfo.released_all {data : PoolAccountInfo} (held : data.shares ≠ 0) :
    data.released data.shares = data.borrowedAmount :=
  proRata_self (Nat.pos_of_ne_zero held)

variable [DecidableEq PoolId] [DecidableEq Account]

section

variable {state next : State config} {who : Account} {pool : PoolId}

/-- A claim that goes through is granted the rewards and paid in one of three ways. -/
theorem claimRewards_claimed {reward : ℕ}
    (success : (claimRewards who pool).run state = .ok reward next) :
    (∃ middle, (updatePoolReward pool).run state = .ok (accrued state pool) middle) ∧
      Claimed config.existentialReward (accrued state pool) (state.poolAccountData pool who)
        reward := by
  simp only [claimRewards, Action.run_bind_ok, Action.run_get_ok] at success
  obtain ⟨_, middle, update, _, _, ⟨rfl, rfl⟩, rest⟩ := success
  obtain ⟨rfl, grant⟩ := updatePoolReward_granted update
  refine ⟨⟨middle, update⟩, ?_⟩
  rw [grant.accounts] at rest
  split_ifs at rest with nothing
  · obtain ⟨rfl, _⟩ := Action.run_pure_ok.mp rest
    exact .nothingHeld nothing
  · simp only [Action.run_bind_ok, Action.run_ofExcept_ok, okOr_eq_ok, checkedSub_eq_some] at rest
    obtain ⟨_, _, ⟨valued, rfl⟩, _, _, ⟨⟨covers, rfl⟩, rfl⟩, rest⟩ := rest
    obtain ⟨rfl, _⟩ := calcRewardByShares_eq_ok valued
    split_ifs at rest with small
    · obtain ⟨rfl, _⟩ := Action.run_pure_ok.mp rest
      exact .tooSmall nothing small
    · simp only [Action.run_bind_ok, Action.run_modify_ok, Action.run_pure_ok,
        Action.run_ofExcept_ok, okOr_eq_ok, checkedSub_eq_some, ensure_eq_ok] at rest
      obtain ⟨_, _, ⟨⟨backed, rfl⟩, rfl⟩, _, _, ⟨_, rfl⟩, _, _, _, _, _, rfl, _, _, rfl, rfl,
        _⟩ := rest
      exact .paid nothing covers backed (Nat.le_of_not_lt small)

/-! ## What the preview gives -/

omit [DecidableEq PoolId] [DecidableEq Account] in
theorem getAccumlatedRewards_of_empty (empty : (state.poolAccountData pool who).shares = 0) :
    getAccumlatedRewards state who pool = 0 := by
  simp [getAccumlatedRewards, empty]

omit [DecidableEq PoolId] [DecidableEq Account] in
/-- The preview is what a removal of all shares sends, or nothing. -/
theorem getAccumlatedRewards_cases {info : PoolInfo} {change : ℕ}
    (granted : calcPoolReward state pool = .ok (info, change))
    (held : (state.poolAccountData pool who).shares ≠ 0) :
    (∃ after left, getRewardsByAccountShares config.existentialReward info
      (state.poolAccountData pool who) (state.poolAccountData pool who).shares =
        .ok (after, left, getAccumlatedRewards state who pool)) ∨
    (∃ problem, getRewardsByAccountShares config.existentialReward info
      (state.poolAccountData pool who) (state.poolAccountData pool who).shares =
        .error problem) ∧ getAccumlatedRewards state who pool = 0 := by
  simp only [getAccumlatedRewards, if_neg held, granted, ok_bind]
  cases removed : getRewardsByAccountShares config.existentialReward info
    (state.poolAccountData pool who) (state.poolAccountData pool who).shares with
  | ok result =>
    obtain ⟨after, left, reward⟩ := result
    exact .inl ⟨after, left, rfl⟩
  | error problem => exact .inr ⟨⟨problem, rfl⟩, rfl⟩

omit [DecidableEq PoolId] [DecidableEq Account] in
/-- A reward that is not above the minimum is previewed as nothing. -/
theorem getAccumlatedRewards_of_small {info : PoolInfo} {change : ℕ}
    (granted : calcPoolReward state pool = .ok (info, change))
    (held : (state.poolAccountData pool who).shares ≠ 0)
    (small : info.worth (state.poolAccountData pool who).shares -
      (state.poolAccountData pool who).borrowedAmount ≤ config.existentialReward) :
    getAccumlatedRewards state who pool = 0 := by
  rcases getAccumlatedRewards_cases granted held with ⟨after, left, removed⟩ | ⟨-, nothing⟩
  · have booking := getRewardsByAccountShares_booking removed
    generalize getAccumlatedRewards state who pool = preview at booking ⊢
    cases booking with
    | leftPaid _ _ _ _ _ sendable =>
      rw [PoolAccountInfo.released_all held] at sendable
      exact absurd small (Nat.not_le.mpr sendable)
    | leftUnpaid => rfl
  · exact nothing

/-- The account is due exactly the minimum that can be sent. -/
def DueMinimum (state : State config) (who : Account) (pool : PoolId) : Prop :=
  config.existentialReward ≠ 0 ∧
    (accrued state pool).worth (state.poolAccountData pool who).shares =
      (state.poolAccountData pool who).borrowedAmount + config.existentialReward

instance (state : State config) (who : Account) (pool : PoolId) :
    Decidable (DueMinimum state who pool) :=
  inferInstanceAs (Decidable (_ ∧ _))

/-- In every state reached, the preview is what a claim that goes through pays, unless the account
is due exactly the minimum that can be sent. -/
theorem getAccumlatedRewards_eq_iff {store : config.ledger.Store} {blockNumber : ℕ}
    {log : List (Label config)}
    (run : Machine.Run (pallet config) anyLabel (genesis store blockNumber) log state) {reward : ℕ}
    (success : (claimRewards who pool).run state = .ok reward next) :
    getAccumlatedRewards state who pool = reward ↔ ¬ DueMinimum state who pool := by
  obtain ⟨⟨middle, update⟩, claimed⟩ := claimRewards_claimed success
  have granted := calcPoolReward_eq_ok.mpr ⟨(updatePoolReward_eq_ok.mp update).1, rfl, rfl⟩
  have grant := (updatePoolReward_granted update).2
  cases claimed with
  | nothingHeld empty =>
    rw [getAccumlatedRewards_of_empty empty, DueMinimum, empty, PoolInfo.worth,
      proRata_zero_amount]
    omega
  | tooSmall held small =>
    rw [getAccumlatedRewards_of_small granted held small.le, DueMinimum]
    omega
  | paid held covers backed sendable =>
    have sound := (run_sound run pool).grant grant.fits
    have loan := sound.loan_le who
    have fits := sound.rewardsFit
    have released := PoolAccountInfo.released_all held
    have redeemable : Redeemable (accrued state pool) (state.poolAccountData pool who)
        (state.poolAccountData pool who).shares := by
      constructor
      · rw [released]
        exact covers
      · rw [released]
        omega
    obtain ⟨after, left, removed⟩ := getRewardsByAccountShares_of_redeemable
      (Nat.pos_of_ne_zero held) (sound.shares_le who) le_rfl fits (by omega) redeemable
    have preview : getAccumlatedRewards state who pool = payout config.existentialReward
        (accrued state pool) (state.poolAccountData pool who)
        (state.poolAccountData pool who).shares := by
      rcases getAccumlatedRewards_cases granted held with ⟨_, _, same⟩ | ⟨⟨_, failed⟩, -⟩
      · rw [removed] at same
        simp only [Except.ok.injEq, Prod.mk.injEq] at same
        exact same.2.2.symm
      · rw [removed] at failed
        contradiction
    rw [preview, payout, released, DueMinimum]
    split_ifs <;> omega

end

/-! ## A reward of exactly the minimum -/

/-- One share and one block of rewards. -/
def oneShare (reward : ℕ) : List (Label (mockPool reward 10)) :=
  [.call .alice () (.addShare 1), .nextBlock]

/-- Where a reward of 19 is due, the preview tells it. -/
theorem oneShare_preview : getAccumlatedRewards (mockAfter (oneShare 19)) .alice () = 19 := by
  obtain ⟨log, run⟩ := mockAfter_reached (show ((pallet (mockPool 19 10)).replay
    (mockGenesis 19 10) (oneShare 19)).isOk = true by decide +kernel)
  obtain ⟨next, pays⟩ := Action.result_eq_ok.mp
    (show (claimRewards .alice ()).result (mockAfter (oneShare 19)) = .ok 19 by decide +kernel)
  exact (getAccumlatedRewards_eq_iff run pays).mpr (by decide +kernel)

/-- A reward of just the minimum is paid, and previewed as nothing. -/
theorem oneShare_preview_misses :
    ¬ ∀ (log : List (Label (mockPool 10 10))) (state next : State (mockPool 10 10)) (who : Party)
      (reward : ℕ), Machine.Run (pallet (mockPool 10 10)) anyLabel (mockGenesis 10 10) log state →
      (claimRewards who ()).run state = .ok reward next →
      getAccumlatedRewards state who () = reward := by
  intro agrees
  obtain ⟨log, run⟩ := mockAfter_reached (show ((pallet (mockPool 10 10)).replay
    (mockGenesis 10 10) (oneShare 10)).isOk = true by decide +kernel)
  obtain ⟨next, pays⟩ := Action.result_eq_ok.mp
    (show (claimRewards .alice ()).result (mockAfter (oneShare 10)) = .ok 10 by decide +kernel)
  exact absurd (agrees log _ next .alice 10 run pays) (by decide +kernel)

end GlitchRuntime.RewardPool

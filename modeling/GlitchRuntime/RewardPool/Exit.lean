import GlitchRuntime.RewardPool.Ledger

/-! # Leaving a pool

Removing shares that an account holds goes through, provided the rewards can be granted and the
payment made, exactly when the shares are worth what is released of the loan and the rest can be
withdrawn. Both may fail: the two parts are rounded through different quotients, and a reward that
nobody borrowed is worth something to every share.
-/

namespace GlitchRuntime.RewardPool

open Lib FixedU128

variable {Account PoolId : Type} {config : Config Account PoolId}

/-- What a removal sends: the worth of the shares less the loan on them, if that is not too
small. -/
def payout (existentialReward : ℕ) (info : PoolInfo) (data : PoolAccountInfo) (amount : ℕ) : ℕ :=
  if info.worth amount - data.released amount ≤ existentialReward then 0
  else info.worth amount - data.released amount

/-- The shares are worth the part of the loan on them, and the rest can be withdrawn. -/
def Redeemable (info : PoolInfo) (data : PoolAccountInfo) (amount : ℕ) : Prop :=
  data.released amount ≤ info.worth amount ∧
    info.worth amount ≤ data.released amount + info.totalRewardsUseable

instance (info : PoolInfo) (data : PoolAccountInfo) (amount : ℕ) :
    Decidable (Redeemable info data amount) :=
  inferInstanceAs (Decidable (_ ∧ _))

/-- Only redeemable shares are removed. -/
theorem Booking.redeemable {existentialReward amount : ℕ} {info after : PoolInfo}
    {data left : PoolAccountInfo} {sent : Option ℕ}
    (booking : Booking existentialReward info data (.removeShare amount) after left sent) :
    Redeemable info data amount := by
  cases booking with
  | leftPaid _ _ _ covers backed => exact ⟨covers, by omega⟩
  | leftUnpaid _ _ _ covers backed => exact ⟨covers, by omega⟩

theorem calcRewardByShares_of_le {info : PoolInfo} {amount : ℕ} (positive : 0 < amount)
    (inPool : amount ≤ info.totalShares) (rewardsFit : info.totalRewards < 2 ^ 128) :
    calcRewardByShares info amount = .ok (info.worth amount) := by
  have shares : 0 < info.totalShares := positive.trans_le inPool
  have some_shares : ¬ (info.totalShares = 0 ∨ amount = 0) := by omega
  rw [calcRewardByShares, if_neg some_shares, if_neg (Nat.not_lt.mpr inPool)]
  simp only [bind_eq_ok, okOr_eq_ok, ensure_eq_ok, pure_eq_ok]
  exact ⟨_, checkedFromRational_checkedMulInt shares inPool rewardsFit, (), proRata_le inPool, rfl⟩

/-- Removing redeemable shares is calculated without an error. -/
theorem getRewardsByAccountShares_of_redeemable {existentialReward amount : ℕ} {info : PoolInfo}
    {data : PoolAccountInfo} (positive : 0 < amount) (inPool : amount ≤ info.totalShares)
    (held : amount ≤ data.shares) (rewardsFit : info.totalRewards < 2 ^ 128)
    (loanFits : data.borrowedAmount < 2 ^ 128) (redeemable : Redeemable info data amount) :
    ∃ after left, getRewardsByAccountShares existentialReward info data amount =
      .ok (after, left, payout existentialReward info data amount) := by
  obtain ⟨covers, backed⟩ := redeemable
  have within : info.worth amount ≤ info.totalRewards := proRata_le inPool
  have paid : ∃ rewards useable, payOut existentialReward info (info.worth amount)
      (info.worth amount - data.released amount) =
      .ok (payout existentialReward info data amount, rewards, useable) := by
    unfold payOut payout
    split_ifs with small
    · exact ⟨_, _, rfl⟩
    · refine ⟨info.totalRewards - info.worth amount,
        info.totalRewardsUseable - (info.worth amount - data.released amount), ?_⟩
      simp only [bind_eq_ok, okOr_eq_ok, checkedSub_eq_some, pure_eq_ok]
      exact ⟨_, ⟨within, rfl⟩, _, ⟨by omega, rfl⟩, rfl⟩
  obtain ⟨rewards, useable, paid⟩ := paid
  have released : ((checkedFromRational amount data.shares).bind fun ratio =>
      ratio.checkedMulInt data.borrowedAmount) = some (data.released amount) :=
    checkedFromRational_checkedMulInt (positive.trans_le held) held loanFits
  refine ⟨{ info with
      totalShares := info.totalShares - amount
      totalRewards := rewards
      totalRewardsUseable := useable },
    { shares := data.shares - amount
      borrowedAmount := data.borrowedAmount - data.released amount }, ?_⟩
  simp only [getRewardsByAccountShares, bind_eq_ok, okOr_eq_ok, ensure_eq_ok, pure_eq_ok,
    checkedSub_eq_some]
  refine ⟨(), ⟨positive, inPool, held⟩, _, calcRewardByShares_of_le positive inPool rewardsFit, _,
    released, _, ⟨PoolAccountInfo.released_le held, rfl⟩, _, ⟨covers, rfl⟩, (), ⟨by omega, Nat.sub_le ..⟩, _,
    ⟨inPool, rfl⟩, _, paid, _, ⟨held, rfl⟩, rfl⟩

variable [DecidableEq PoolId] [DecidableEq Account]

/-- Grant the pool its rewards and send an amount, without a booking. -/
def grantAndSend (who : Account) (pool : PoolId) (amount : ℕ) :
    Action Error (State config) Unit := do
  let _ ← updatePoolReward pool
  transfer pool who amount

/-- In every state reached, an account removes shares that it holds exactly when they are
redeemable, if the rewards can be granted and what it is due can be sent. -/
theorem removeShare_ok_iff {store : config.ledger.Store} {blockNumber : ℕ} {state : State config}
    {log : List (Label config)}
    (run : Machine.Run (pallet config) anyLabel (genesis store blockNumber) log state)
    {who : Account} {pool : PoolId} {amount : ℕ} (positive : 0 < amount)
    (held : amount ≤ (state.poolAccountData pool who).shares)
    (funded : (grantAndSend who pool (payout config.existentialReward (accrued state pool)
      (state.poolAccountData pool who) amount)).refusal state = none) :
    (∃ shares next, (removeShare who pool amount).run state = .ok shares next) ↔
      Redeemable (accrued state pool) (state.poolAccountData pool who) amount := by
  constructor
  · rintro ⟨shares, next, success⟩
    obtain ⟨middle, info, data, sent, grant, booked⟩ := removeShare_booked success
    have booking := booked.booking
    rw [grant.here, grant.accounts] at booking
    exact booking.redeemable
  · intro redeemable
    obtain ⟨_, rest, success⟩ := Action.refusal_eq_none.mp funded
    obtain ⟨_, middle, update, sending⟩ := Action.run_bind_ok.mp success
    obtain ⟨rfl, grant⟩ := updatePoolReward_granted update
    obtain ⟨store, paid, rfl⟩ := transfer_ok sending
    have sound := (run_sound run pool).grant grant.fits
    have inPool := held.trans (sound.shares_le who)
    have loanFits : (state.poolAccountData pool who).borrowedAmount < 2 ^ 128 := by
      have loan := sound.loan_le who
      have fits := sound.rewardsFit
      omega
    obtain ⟨after, left, computed⟩ : ∃ after left, getRewardsByAccountShares
        config.existentialReward (accrued state pool) (state.poolAccountData pool who) amount =
        .ok (after, left, payout _ _ _ _) :=
      getRewardsByAccountShares_of_redeemable positive inPool held sound.rewardsFit loanFits
        redeemable
    simp only [removeShare, transfer, Action.run_bind_ok, Action.run_get_ok, Action.run_modify_ok,
      Action.run_pure_ok, Action.run_ofExcept_ok, ensure_eq_ok, okOr_eq_ok]
    rw [← grant.accounts] at held computed paid
    exact ⟨_, _, _, _, update, _, _, ⟨rfl, rfl⟩, (), _, ⟨held, rfl⟩, (after, left, _), _,
      ⟨computed, rfl⟩, (), _, rfl, (), _, rfl, (), _,
      ⟨_, _, ⟨rfl, rfl⟩, store, _, ⟨paid, rfl⟩, rfl⟩, rfl, rfl⟩

/-- Two accounts with two and four shares, and a block that grants six units. -/
def sharedBlock : List (Label (mockPool (6 * 10 ^ 18) 1)) :=
  [.call .alice () (.addShare 2), .call .bob () (.addShare 4), .nextBlock,
    .updatePoolReward ()]

/-- Before she claims, the first of them can remove a share. -/
theorem sharedBlock_exit :
    let state := ((pallet (mockPool (6 * 10 ^ 18) 1)).outcome (mockGenesis (6 * 10 ^ 18) 1)
      sharedBlock).1
    ∃ shares next, (removeShare .alice () 1).run state = .ok shares next := by
  refine (removeShare_ok_iff (Machine.run_outcome (fun _ _ => trivial) ?_) (by decide) ?_ ?_).mpr ?_
  · decide +kernel
  · decide +kernel
  · decide +kernel
  · decide +kernel

/-- Once she has claimed she cannot: her loan was rounded through a third of the pool, and half of
it is worth more than a sixth of the pool. -/
theorem claimed_exit_refused :
    let state := ((pallet (mockPool (6 * 10 ^ 18) 1)).outcome (mockGenesis (6 * 10 ^ 18) 1)
      (sharedBlock ++ [.call .alice () .claimRewards])).1
    (∃ log, Machine.Run (pallet (mockPool (6 * 10 ^ 18) 1)) anyLabel
        (mockGenesis (6 * 10 ^ 18) 1) log state) ∧
      1 ≤ (state.poolAccountData () .alice).shares ∧
      (grantAndSend .alice () (payout 1 (accrued state ()) (state.poolAccountData () .alice)
        1)).refusal state = none ∧
      (removeShare .alice () 1).refusal state = some .rewardCaculationError := by
  refine ⟨⟨_, Machine.run_outcome (fun _ _ => trivial) ?_⟩, ?_, ?_, ?_⟩
  · decide +kernel
  · decide +kernel
  · decide +kernel
  · decide +kernel

end GlitchRuntime.RewardPool

import GlitchRuntime.RewardPool.OneBlock

/-! # Shares added by others

Whoever adds shares adds the loan that keeps the price of a share. The loan is rounded down, so the
price falls by a little, and the worth of the shares of others moves by that and by the rounding of
their own quotients.
-/

namespace GlitchRuntime.RewardPool

open Lib FixedU128

variable {Account PoolId : Type} {config : Config Account PoolId}

/-! ## Exact prices -/

section price

variable {shares total rewards loan added gap : ℚ}

/-- A part of the shares loses at most that part of what the loan falls short. -/
theorem le_entry_worth (nonneg : 0 ≤ shares) (someShares : 0 < total) (adds : 0 ≤ added)
    (above : rewards * added / total ≤ loan + gap) :
    shares * rewards / total ≤ shares * (rewards + loan) / (total + added) +
      shares * gap / (total + added) := by
  have price : rewards / total * (total + added) ≤ rewards + loan + gap := by
    calc rewards / total * (total + added) = rewards + rewards * added / total := by field_simp
      _ ≤ rewards + loan + gap := by linarith
  rw [← add_div, le_div_iff₀ (by linarith)]
  calc shares * rewards / total * (total + added)
      = shares * (rewards / total * (total + added)) := by ring
    _ ≤ shares * (rewards + loan + gap) := mul_le_mul_of_nonneg_left price nonneg
    _ = shares * (rewards + loan) + shares * gap := by ring

/-- Where the loan falls short by one unit and the decimals of the shares added, that part is at
most one unit and the decimals of all shares. -/
theorem entry_gap_le {units : ℚ} (precise : 0 < units) (part : shares ≤ total)
    (someShares : 0 < total) (adds : 0 ≤ added) :
    shares * (1 + added / units) / (total + added) ≤ 1 + total / units := by
  have ratio : 0 ≤ added / units := by positivity
  have square : 0 ≤ total / units * total := by positivity
  rw [div_le_iff₀ (by linarith)]
  calc shares * (1 + added / units) ≤ total * (1 + added / units) :=
        mul_le_mul_of_nonneg_right part (by linarith)
    _ = total + total / units * added := by field_simp
    _ ≤ (1 + total / units) * (total + added) := by linarith

end price

/-! ## What an entry does to the worth of shares -/

section booking

variable {info : PoolInfo} {amount shares : ℕ}

/-- A pool after an entry at its price. -/
def PoolInfo.entered (info : PoolInfo) (amount : ℕ) : PoolInfo :=
  { info with
    totalShares := info.totalShares + amount
    totalRewards := info.totalRewards + proRata info.totalRewards info.totalShares amount }

theorem entered_totalShares :
    ((info.entered amount).totalShares : ℚ) = info.totalShares + amount := Nat.cast_add ..

theorem entered_totalRewards : ((info.entered amount).totalRewards : ℚ) =
    info.totalRewards + proRata info.totalRewards info.totalShares amount := Nat.cast_add ..

/-- An entry lifts the worth of shares by less than the rounding of their worth before. -/
theorem entered_worth_rises (someShares : 0 < info.totalShares) :
    ((info.entered amount).worth shares : ℚ) - info.worth shares <
      1 + info.totalRewards / accuracy := by
  have total : (0 : ℚ) < info.totalShares := by exact_mod_cast someShares
  have lent : (proRata info.totalRewards info.totalShares amount : ℚ) ≤
      info.totalRewards * amount / info.totalShares := proRata_le_exact
  have after : ((info.entered amount).worth shares : ℚ) ≤
      shares * (info.entered amount).totalRewards / (info.entered amount).totalShares :=
    proRata_le_exact
  have before : (shares * info.totalRewards / info.totalShares : ℚ) <
      info.worth shares + 1 + info.totalRewards / accuracy := exact_lt_proRata
  rw [entered_totalShares, entered_totalRewards] at after
  have price := entry_worth_le (Nat.cast_nonneg shares) total (Nat.cast_nonneg amount) lent
  linarith

/-- An entry lowers the worth of a part of the shares by less than the rounding of the loan and of
their worth after. -/
theorem entered_worth_falls (someShares : 0 < info.totalShares)
    (part : shares ≤ info.totalShares) :
    (info.worth shares : ℚ) - (info.entered amount).worth shares <
      2 + (info.totalShares + (info.entered amount).totalRewards) / accuracy := by
  have total : (0 : ℚ) < info.totalShares := by exact_mod_cast someShares
  have units : (0 : ℚ) < accuracy := by exact_mod_cast accuracy_pos
  have some_of : (shares : ℚ) ≤ info.totalShares := by exact_mod_cast part
  have lent : (info.totalRewards * amount / info.totalShares : ℚ) <
      proRata info.totalRewards info.totalShares amount + 1 + amount / accuracy := exact_lt_proRata
  have before : (info.worth shares : ℚ) ≤ shares * info.totalRewards / info.totalShares :=
    proRata_le_exact
  have after : (shares * (info.entered amount).totalRewards / (info.entered amount).totalShares : ℚ) <
      (info.entered amount).worth shares + 1 + (info.entered amount).totalRewards / accuracy :=
    exact_lt_proRata
  have price := le_entry_worth (Nat.cast_nonneg shares) total (Nat.cast_nonneg amount)
    (show (info.totalRewards * amount / info.totalShares : ℚ) ≤
      proRata info.totalRewards info.totalShares amount + (1 + amount / accuracy) by linarith)
  have gap := entry_gap_le units some_of total (Nat.cast_nonneg amount)
  rw [← entered_totalShares, ← entered_totalRewards] at price
  rw [← entered_totalShares] at gap
  calc (info.worth shares : ℚ) - (info.entered amount).worth shares
      < 1 + info.totalShares / accuracy + (1 + (info.entered amount).totalRewards / accuracy) := by
        linarith
    _ = 2 + (info.totalShares + (info.entered amount).totalRewards) / accuracy := by ring

end booking

/-! ## An entry in a block that was granted -/

theorem calcRewardByShares_part {info : PoolInfo} {shares : ℕ} (part : shares ≤ info.totalShares)
    (rewardsFit : info.totalRewards < 2 ^ 128) :
    calcRewardByShares info shares = .ok (info.worth shares) := by
  rcases Nat.eq_zero_or_pos shares with rfl | positive
  · rw [calcRewardByShares, if_pos (.inr rfl), PoolInfo.worth, proRata_zero_amount]
  · exact calcRewardByShares_of_le positive part rewardsFit

variable [DecidableEq PoolId] [DecidableEq Account]

/-- An entry into a pool that was granted its rewards changes its totals and one account. -/
theorem addShare_entered {state next : State config} {who : Account} {pool : PoolId}
    {amount shares : ℕ} (updated : Updated state pool)
    (success : (addShare who pool amount).run state = .ok shares next) :
    next.pools pool = (state.pools pool).entered amount ∧
      (next.pools pool).totalRewards < 2 ^ 128 ∧
      ∀ holder, holder ≠ who →
        next.poolAccountData pool holder = state.poolAccountData pool holder := by
  obtain ⟨middle, info, data, sent, grant, booked⟩ := addShare_booked success
  have booking := booked.booking
  rw [grant.here, updated.accrued] at booking
  have there : next.pools pool = info := by rw [booked.pools, Function.update_self]
  cases booking with
  | entered positive price sharesFit rewardsFit =>
    refine ⟨?_, ?_, ?_⟩
    · rw [there, price]
      rfl
    · rw [there]
      exact rewardsFit
    · intro holder other
      rw [booked.accounts, Function.update_self, Function.update_of_ne other, grant.accounts]

/-- In every state reached, where a pool with shares was granted its rewards, whoever adds shares
changes what the shares of others are worth by a rounding error only. -/
theorem addShare_dilutes_little {store : config.ledger.Store} {blockNumber : ℕ}
    {state next : State config} {log : List (Label config)}
    (run : Machine.Run (pallet config) anyLabel (genesis store blockNumber) log state)
    {who : Account} {pool : PoolId} (updated : Updated state pool)
    (someShares : 0 < (state.pools pool).totalShares) {amount total : ℕ}
    (success : (addShare who pool amount).run state = .ok total next) :
    (∀ holder, holder ≠ who →
      (next.poolAccountData pool holder).shares = (state.poolAccountData pool holder).shares ∧
        (state.poolAccountData pool holder).shares ≤ (state.pools pool).totalShares) ∧
    ∀ shares ≤ (state.pools pool).totalShares, ∃ before after,
      calcRewardByShares (state.pools pool) shares = .ok before ∧
      calcRewardByShares (next.pools pool) shares = .ok after ∧
      (before : ℚ) - after <
        2 + ((state.pools pool).totalShares + (next.pools pool).totalRewards) / 10 ^ 18 ∧
      (after : ℚ) - before < 1 + (state.pools pool).totalRewards / 10 ^ 18 := by
  have sound := run_sound run pool
  obtain ⟨entered, rewardsFit, others⟩ := addShare_entered updated success
  have units : (accuracy : ℚ) = 10 ^ 18 := by norm_num [accuracy]
  constructor
  · intro holder other
    rw [others holder other]
    exact ⟨rfl, sound.shares_le holder⟩
  · intro shares part
    refine ⟨(state.pools pool).worth shares, (next.pools pool).worth shares, ?_, ?_, ?_, ?_⟩
    · exact calcRewardByShares_part part sound.rewardsFit
    · apply calcRewardByShares_part _ rewardsFit
      rw [entered]
      exact part.trans (Nat.le_add_right ..)
    · rw [entered, ← units]
      exact entered_worth_falls someShares part
    · rw [entered, ← units]
      exact entered_worth_rises someShares

/-! ## A second account enters -/

/-- Three shares and ten units granted on them. -/
def grantedThree : List (Label (mockPool 10 10)) :=
  [.call .alice () (.addShare 3), .nextBlock, .updatePoolReward ()]

/-- Two more shares borrow six units, and the three are worth what they were but for rounding. -/
theorem grantedThree_dilutes_little : ∃ next before after,
    (addShare .bob () 2).run (mockAfter grantedThree) = .ok 2 next ∧
      calcRewardByShares ((mockAfter grantedThree).pools ()) 3 = .ok before ∧
      calcRewardByShares (next.pools ()) 3 = .ok after ∧
      (before : ℚ) - after < 2 + (((mockAfter grantedThree).pools ()).totalShares +
        (next.pools ()).totalRewards) / 10 ^ 18 ∧
      (after : ℚ) - before < 1 + ((mockAfter grantedThree).pools ()).totalRewards / 10 ^ 18 := by
  obtain ⟨log, run⟩ := mockAfter_reached (show ((pallet (mockPool 10 10)).replay
    (mockGenesis 10 10) grantedThree).isOk = true by decide +kernel)
  obtain ⟨next, success⟩ := Action.result_eq_ok.mp
    (show (addShare .bob () 2).result (mockAfter grantedThree) = .ok 2 by decide +kernel)
  obtain ⟨before, after, changed⟩ := (addShare_dilutes_little run
    (show Updated (mockAfter grantedThree) () by decide +kernel) (by decide +kernel) success).2 3
    (by decide +kernel)
  exact ⟨next, before, after, success, changed⟩

end GlitchRuntime.RewardPool

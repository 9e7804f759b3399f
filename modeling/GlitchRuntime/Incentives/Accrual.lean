import GlitchRuntime.Lib.Pieces
import GlitchRuntime.RewardPool.Preview

/-! # Rewards for liquidity

The pools of the exchange are granted the same reward for every block that they have shares in. A
pool books as much however often it is touched on the way. What its account is credited differs
when the credit, which has a sign, saturates for the whole range and not for its parts.
-/

namespace GlitchRuntime.Incentives

open Lib RewardPool

inductive CurrencyId
  | clv
  | cusdt
  | dot
  | ceth
deriving DecidableEq

/-- Two currencies, the smaller one first. -/
structure PairKey where
  left : CurrencyId
  right : CurrencyId
deriving DecidableEq

/-- The pools with rewards. -/
inductive PoolId
  | dex (pair : PairKey)
deriving DecidableEq

/-- The largest balance. -/
def maxBalance : ℕ := 2 ^ 128 - 1

/-- The reward of a pool for the blocks since its last update, by its reward for a block. -/
def caculateReward (dexIncentiveRewards : PoolId → Option ℕ) (poolId : PoolId)
    (totalShare lastUpdateBlock now : ℕ) : ℕ :=
  -- no shares in the pool, should not pay the reward
  if totalShare = 0 then 0
  else if (dexIncentiveRewards poolId).isNone ∨ now ≤ lastUpdateBlock then 0
  else
    let rewardRatio := (dexIncentiveRewards poolId).getD 0
    if rewardRatio = 0 then 0
    else
      let blocks := now - lastUpdateBlock
      min (rewardRatio * min blocks maxBalance) maxBalance

/-- The reward of a pool for a block. -/
def rewardRate (dexIncentiveRewards : PoolId → Option ℕ) (poolId : PoolId) (totalShare : ℕ) : ℕ :=
  if totalShare = 0 then 0 else (dexIncentiveRewards poolId).getD 0

theorem caculateReward_eq {dexIncentiveRewards : PoolId → Option ℕ} {poolId : PoolId}
    {totalShare lastUpdateBlock now : ℕ} (later : lastUpdateBlock < now) :
    caculateReward dexIncentiveRewards poolId totalShare lastUpdateBlock now =
      saturatedProduct maxBalance (rewardRate dexIncentiveRewards poolId totalShare)
        (now - lastUpdateBlock) := by
  unfold caculateReward rewardRate
  cases configured : dexIncentiveRewards poolId with
  | none => simp
  | some rate =>
    have ahead : ¬ now ≤ lastUpdateBlock := Nat.not_le.mpr later
    simp only [Option.isNone_some, Bool.false_eq_true, false_or, ahead, if_false, Option.getD_some]
    split_ifs with empty free
    · simp
    · simp [free]
    · rfl

/-- The reward pool with this handler. -/
def rewardPool {Account : Type} (ledger : LedgerOps Account) (subAccountId : PoolId → Account)
    (existentialReward : ℕ) (dexIncentiveRewards : PoolId → Option ℕ) : Config Account PoolId where
  ledger := ledger
  subAccountId := subAccountId
  caculateReward _ := caculateReward dexIncentiveRewards
  existentialReward := existentialReward

section updates

variable {Account : Type} {config : Config Account PoolId}

/-- Update a pool at a block. -/
def updatePoolRewardAt (pool : PoolId) (block : ℕ) : Action Error (State config) Unit := do
  modify fun state => { state with blockNumber := block }
  let _ ← updatePoolReward pool
  pure ()

/-- Update a pool at some blocks, one after the other. -/
def updatesAt (pool : PoolId) : List ℕ → Action Error (State config) Unit
  | [] => pure ()
  | block :: rest => do
    updatePoolRewardAt pool block
    updatesAt pool rest

/-- A pool was granted some amounts up to a block, and its account was credited each of them as far
as a signed amount goes. -/
structure Accrues (state : State config) (pool : PoolId) (block : ℕ) (amounts : List ℕ)
    (next : State config) : Prop where
  booked : next.pools pool =
    { state.pools pool with
      totalRewards := (state.pools pool).totalRewards + amounts.sum
      totalRewardsUseable := (state.pools pool).totalRewardsUseable + amounts.sum
      lastUpdateBlock := block }
  credited : config.ledger.freeBalance next.store (config.subAccountId pool) =
    config.ledger.freeBalance state.store (config.subAccountId pool) + limitedSum maxAmount amounts
  fits : amounts.sum ≠ 0 → (next.pools pool).totalRewards < 2 ^ 128 ∧
    (next.pools pool).totalRewardsUseable < 2 ^ 128

variable {state middle next : State config} {pool : PoolId}

theorem Accrues.trans {block later : ℕ} {first second : List ℕ}
    (before : Accrues state pool block first middle)
    (after : Accrues middle pool later second next) :
    Accrues state pool later (first ++ second) next where
  booked := by
    rw [after.booked, before.booked]
    simp only [List.sum_append, Nat.add_assoc]
  credited := by
    rw [after.credited, before.credited, limitedSum_append, Nat.add_assoc]
  fits := by
    intro granted
    rcases Nat.eq_zero_or_pos second.sum with none | some_more
    · rw [List.sum_append, none, Nat.add_zero] at granted
      rw [after.booked, none]
      exact before.fits granted
    · exact after.fits some_more.ne'

variable [DecidableEq Account]

/-- One update grants what is due at its block. -/
theorem updatePoolRewardAt_accrues (exact : config.ledger.Exact) {block : ℕ}
    (later : (state.pools pool).lastUpdateBlock < block)
    (success : (updatePoolRewardAt pool block).run state = .ok () next) :
    Accrues state pool block [dueReward { state with blockNumber := block } pool] next := by
  simp only [updatePoolRewardAt, Action.run_bind_ok, Action.run_modify_ok,
    Action.run_pure_ok] at success
  obtain ⟨_, _, rfl, _, _, update, -, rfl⟩ := success
  have dueFits := (updatePoolReward_eq_ok.mp update).1
  obtain ⟨rfl, grant⟩ := updatePoolReward_granted update
  constructor
  case booked =>
    rw [grant.here, accrued, max_eq_right later.le]
    simp
  case credited =>
    rw [grant.credits_limited exact]
    simp [limitedSum]
  case fits =>
    intro granted
    rw [List.sum_singleton] at granted
    rw [grant.here]
    exact dueFits granted

omit [DecidableEq Account] in
/-- Only the currency refuses a credit. -/
theorem creditSubAccount_refused {change : ℕ} {problem : Error}
    (failed : (creditSubAccount pool change).run state = .error problem next) :
    problem = .currency := by
  unfold creditSubAccount at failed
  split_ifs at failed with nothing
  · exact absurd failed Action.run_pure_error
  · simp only [Action.run_bind_error, Action.run_get_error, Action.run_get_ok,
      Action.run_ofExcept_error, Action.run_modify_error, okOr_eq_error, false_or, and_false,
      exists_false, or_false] at failed
    obtain ⟨_, _, -, ⟨-, rfl⟩, -⟩ := failed
    rfl

omit [DecidableEq Account] in
/-- An update that is refused could not be booked, or the currency refused it. -/
theorem updatePoolRewardAt_refused {block : ℕ} {problem : Error}
    (failed : (updatePoolRewardAt pool block).run state = .error problem next) :
    calcPoolReward { state with blockNumber := block } pool = .error problem ∨
      problem = .currency := by
  simp only [updatePoolRewardAt, updatePoolReward, Action.run_bind_error, Action.run_modify_error,
    Action.run_modify_ok, Action.run_get_error, Action.run_get_ok, Action.run_ofExcept_error,
    Action.run_ofExcept_ok, Action.run_pure_error, false_or, and_false, exists_false,
    or_false] at failed
  obtain ⟨_, _, rfl, _, _, ⟨rfl, rfl⟩, ⟨refused, -⟩ | ⟨_, _, ⟨-, rfl⟩, credit⟩⟩ := failed
  · exact .inl refused
  · exact .inr (creditSubAccount_refused credit)

end updates

section handler

variable {Account : Type} [DecidableEq Account] {ledger : LedgerOps Account}
  {subAccountId : PoolId → Account} {existentialReward : ℕ}
  {dexIncentiveRewards : PoolId → Option ℕ} {pool : PoolId}
  {state next : State (rewardPool ledger subAccountId existentialReward dexIncentiveRewards)}

omit [DecidableEq Account] in
theorem dueReward_eq {block : ℕ} (later : (state.pools pool).lastUpdateBlock < block) :
    dueReward { state with blockNumber := block } pool = saturatedProduct maxBalance
      (rewardRate dexIncentiveRewards pool (state.pools pool).totalShares)
      (block - (state.pools pool).lastUpdateBlock) :=
  (if_neg (Nat.not_le.mpr later)).trans (caculateReward_eq later)

/-- Updates at increasing blocks grant the pieces of the range. -/
theorem updatesAt_accrues (exact : ledger.Exact) {blocks : List ℕ} {now : ℕ}
    (increasing : List.IsChain (· < ·) ((state.pools pool).lastUpdateBlock :: (blocks ++ [now])))
    (success : (updatesAt pool (blocks ++ [now])).run state = .ok () next) :
    Accrues state pool now (pieces maxBalance
      (rewardRate dexIncentiveRewards pool (state.pools pool).totalShares)
      (state.pools pool).lastUpdateBlock (blocks ++ [now])) next := by
  induction blocks generalizing state with
  | nil =>
    have later := (List.isChain_cons_cons.mp increasing).1
    simp only [List.nil_append, updatesAt, Action.run_bind_ok, Action.run_pure_ok] at success
    obtain ⟨_, _, update, -, rfl⟩ := success
    have step := updatePoolRewardAt_accrues exact later update
    rw [dueReward_eq later] at step
    exact step
  | cons block rest ih =>
    obtain ⟨later, others⟩ := List.isChain_cons_cons.mp increasing
    simp only [List.cons_append, updatesAt, Action.run_bind_ok] at success
    obtain ⟨_, middle, update, after⟩ := success
    have step := updatePoolRewardAt_accrues exact later update
    rw [dueReward_eq later] at step
    have last : (middle.pools pool).lastUpdateBlock = block := by rw [step.booked]
    have shares : (middle.pools pool).totalShares = (state.pools pool).totalShares := by
      rw [step.booked]
    have tail := ih (by rw [last]; exact others) after
    rw [last, shares] at tail
    exact step.trans tail

section split

variable {blocks : List ℕ} {now : ℕ}
  (accrues : Accrues state pool now (pieces maxBalance
    (rewardRate dexIncentiveRewards pool (state.pools pool).totalShares)
    (state.pools pool).lastUpdateBlock (blocks ++ [now])) next)
include accrues

omit [DecidableEq Account] in
theorem Accrues.sum_le : (pieces maxBalance
    (rewardRate dexIncentiveRewards pool (state.pools pool).totalShares)
    (state.pools pool).lastUpdateBlock (blocks ++ [now])).sum ≤ maxBalance := by
  by_contra beyond
  have total := (accrues.fits (by omega)).1
  rw [accrues.booked] at total
  simp only [maxBalance] at beyond total
  omega

variable
  (increasing : List.IsChain (· < ·) ((state.pools pool).lastUpdateBlock :: (blocks ++ [now])))
include increasing

omit [DecidableEq Account] in
/-- The pieces that were granted come to what is due at the last block. -/
theorem Accrues.sum_eq : (pieces maxBalance
    (rewardRate dexIncentiveRewards pool (state.pools pool).totalShares)
    (state.pools pool).lastUpdateBlock (blocks ++ [now])).sum =
      dueReward { state with blockNumber := now } pool := by
  rw [dueReward_eq (increasing.rel_cons (by simp))]
  exact pieces_sum (by decide) increasing (accrues.sum_le)

omit [DecidableEq Account] in
/-- What was granted in pieces can be granted at once, unless the currency refuses. -/
theorem Accrues.once_refused {problem : Error}
    (refused : (updatesAt pool [now]).refusal state = some problem) : problem = .currency := by
  obtain ⟨after, failed⟩ := Action.refusal_eq_some.mp refused
  simp only [updatesAt, Action.run_bind_error, Action.run_pure_error, and_false, exists_false,
    or_false] at failed
  rcases updatePoolRewardAt_refused failed with uncalculated | uncredited
  · have due := accrues.sum_eq increasing
    have fits := accrues.fits
    rw [accrues.booked, due] at fits
    have computed := calcPoolReward_eq_ok.mpr
      ⟨show DueFits { state with blockNumber := now } pool from fits, rfl, rfl⟩
    rw [computed] at uncalculated
    contradiction
  · exact uncredited

end split

/-- A pool that is updated at increasing blocks is granted as much as by one update at the last of
them, which only the currency can refuse. Its account is credited as much exactly when there were no
blocks between, or the reward of the whole range has a sign. -/
theorem updatesAt_split_iff (exact : ledger.Exact) {blocks : List ℕ} {now : ℕ}
    (increasing : List.IsChain (· < ·) ((state.pools pool).lastUpdateBlock :: (blocks ++ [now])))
    (success : (updatesAt pool (blocks ++ [now])).run state = .ok () next) :
    (∀ problem, (updatesAt pool [now]).refusal state = some problem → problem = .currency) ∧
    ∀ single, (updatesAt pool [now]).run state = .ok () single →
      (next.pools pool = single.pools pool ∧
          ledger.freeBalance next.store (subAccountId pool) =
            ledger.freeBalance single.store (subAccountId pool) ↔
        blocks = [] ∨ rewardRate dexIncentiveRewards pool (state.pools pool).totalShares *
          (now - (state.pools pool).lastUpdateBlock) ≤ maxAmount) := by
  have accrues := updatesAt_accrues exact increasing success
  have later : (state.pools pool).lastUpdateBlock < now := increasing.rel_cons (by simp)
  refine ⟨fun problem refused => accrues.once_refused increasing refused, ?_⟩
  intro single once
  have alone : List.IsChain (· < ·) ((state.pools pool).lastUpdateBlock :: ([] ++ [now])) :=
    List.isChain_cons_cons.mpr ⟨later, .singleton _⟩
  have whole := updatesAt_accrues exact alone once
  have same : next.pools pool = single.pools pool := by
    rw [accrues.booked, whole.booked, accrues.sum_eq increasing, whole.sum_eq alone]
  have limited := limitedSum_pieces_iff (show 0 < maxBalance by decide)
    (show 0 < maxAmount by decide) increasing (accrues.sum_le)
  have credited : ledger.freeBalance next.store (subAccountId pool) = _ := accrues.credited
  have creditedOnce : ledger.freeBalance single.store (subAccountId pool) = _ := whole.credited
  rw [← saturatedProduct_le_iff (show maxAmount < maxBalance by decide), ← limited, credited,
    creditedOnce]
  simp [same, limitedSum, pieces]

end handler

/-! ## A pool with one share -/

/-- The same reward for a block in every pool, over plain balances. -/
def steadyRewards (reward : ℕ) : Config ℕ PoolId :=
  rewardPool (.plain ℕ) (fun _ => 0) 1 fun _ => some reward

/-- Every pool has one share and was updated at block zero. -/
def oneShareEach (reward : ℕ) : State (steadyRewards reward) where
  pools _ := { totalShares := 1 }
  poolAccountData _ _ := {}
  store := fun _ : ℕ => 0
  blockNumber := 0

/-- The balances of the account of a pool after updates at some blocks and at others. -/
def balancesAfter (reward : ℕ) (pool : PoolId) (blocks others : List ℕ) : Option (ℕ × ℕ) :=
  match (updatesAt pool blocks).run (oneShareEach reward),
    (updatesAt pool others).run (oneShareEach reward) with
  | .ok _ left, .ok _ right => some ((steadyRewards reward).ledger.freeBalance left.store 0,
      (steadyRewards reward).ledger.freeBalance right.store 0)
  | _, _ => none

/-- Ten for a block come to thirty after three blocks, in one update or three. -/
theorem steadyRewards_split : ∃ split single : State (steadyRewards 10),
    (updatesAt (.dex ⟨.clv, .dot⟩) [1, 2, 3]).run (oneShareEach 10) = .ok () split ∧
      (updatesAt (.dex ⟨.clv, .dot⟩) [3]).run (oneShareEach 10) = .ok () single ∧
      split.pools (.dex ⟨.clv, .dot⟩) = single.pools (.dex ⟨.clv, .dot⟩) ∧
      (steadyRewards 10).ledger.freeBalance split.store 0 =
        (steadyRewards 10).ledger.freeBalance single.store 0 := by
  obtain ⟨split, splitOk⟩ := Action.result_eq_ok.mp
    (show (updatesAt (.dex ⟨.clv, .dot⟩) ([1, 2] ++ [3])).result (oneShareEach 10) = .ok () by
      decide +kernel)
  obtain ⟨single, singleOk⟩ := Action.result_eq_ok.mp
    (show (updatesAt (.dex ⟨.clv, .dot⟩) [3]).result (oneShareEach 10) = .ok () by
      decide +kernel)
  have increasing : List.IsChain (· < ·) (((oneShareEach 10).pools
      (.dex ⟨.clv, .dot⟩)).lastUpdateBlock :: ([1, 2] ++ [3])) := by decide +kernel
  exact ⟨split, single, splitOk, singleOk, ((updatesAt_split_iff LedgerOps.plain_exact increasing
    splitOk).2 single singleOk).mpr (.inr (by decide +kernel))⟩

/-- Two blocks at the largest signed amount are credited twice one by one, and once together. -/
theorem largestReward_split_differs :
    ¬ ∀ (state split single : State (steadyRewards (2 ^ 127 - 1))) (pool : PoolId)
      (blocks : List ℕ) (now : ℕ),
      List.IsChain (· < ·) ((state.pools pool).lastUpdateBlock :: (blocks ++ [now])) →
      (updatesAt pool (blocks ++ [now])).run state = .ok () split →
      (updatesAt pool [now]).run state = .ok () single →
      split.pools pool = single.pools pool ∧
        (steadyRewards (2 ^ 127 - 1)).ledger.freeBalance split.store 0 =
          (steadyRewards (2 ^ 127 - 1)).ledger.freeBalance single.store 0 := by
  intro agrees
  have balances : balancesAfter (2 ^ 127 - 1) (.dex ⟨.clv, .dot⟩) ([1] ++ [2]) [2] =
      some (2 ^ 128 - 2, 2 ^ 127 - 1) := by
    decide +kernel
  unfold balancesAfter at balances
  split at balances
  · next _ split _ single splitOk singleOk =>
    have same := (agrees (oneShareEach _) split single (.dex ⟨.clv, .dot⟩) [1] 2 (by decide +kernel)
      splitOk singleOk).2
    rw [same] at balances
    obtain ⟨left, right⟩ := Prod.mk.inj (Option.some.inj balances)
    exact absurd (left.symm.trans right) (by decide)
  · contradiction

end GlitchRuntime.Incentives

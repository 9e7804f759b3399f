import GlitchRuntime.RewardPool.Backing
import GlitchRuntime.RewardPool.Exit

/-! # Calls within one block

Within one block no reward is granted, and an account that only calls the pool cannot draw more
from it than its shares were worth beyond its loan, up to rounding. What it could still draw is its
potential: the exact worth of its shares less its loan, or all rewards while nobody holds shares.
-/

namespace GlitchRuntime.RewardPool

open Lib FixedU128

variable {Account PoolId : Type} {config : Config Account PoolId}

/-! ## The potential of an account -/

/-- What an account could draw from a pool if nothing were rounded. -/
def potential (info : PoolInfo) (data : PoolAccountInfo) : ℚ :=
  if info.totalShares = 0 then info.totalRewards
  else data.shares * info.totalRewards / info.totalShares - data.borrowedAmount

/-- A loan below the price of the shares added keeps the price of a share or lowers it. -/
theorem entry_worth_le {shares total rewards loan added : ℚ} (nonneg : 0 ≤ shares)
    (someShares : 0 < total) (adds : 0 ≤ added) (below : loan ≤ rewards * added / total) :
    shares * (rewards + loan) / (total + added) ≤ shares * rewards / total := by
  have price : rewards + loan ≤ rewards / total * (total + added) := by
    calc rewards + loan ≤ rewards + rewards * added / total := by linarith
      _ = rewards / total * (total + added) := by field_simp
  rw [div_le_iff₀ (by linarith)]
  calc shares * (rewards + loan) ≤ shares * (rewards / total * (total + added)) :=
        mul_le_mul_of_nonneg_left price nonneg
    _ = shares * rewards / total * (total + added) := by ring

/-- An entry at a price rounded down leaves at most what rounding took from the loan. -/
theorem entry_potential {shares total rewards loan owed added gap : ℚ} (nonneg : 0 ≤ shares)
    (someShares : 0 < total) (adds : 0 ≤ added) (below : loan ≤ rewards * added / total)
    (above : rewards * added / total ≤ loan + gap) :
    (shares + added) * (rewards + loan) / (total + added) - (owed + loan) ≤
      shares * rewards / total - owed + gap := by
  have worth : (shares + added) * (rewards + loan) / (total + added) ≤
      (shares + added) * rewards / total :=
    entry_worth_le (by linarith) someShares adds below
  have split : (shares + added) * rewards / total =
      shares * rewards / total + rewards * added / total := by
    ring
  linarith

/-- An exit at a worth rounded down leaves no more than the rest of the shares was worth. -/
theorem exit_potential {shares total rewards worth removed : ℚ} (removes : 0 ≤ removed)
    (part : shares ≤ total) (left : removed < total)
    (below : worth ≤ removed * rewards / total) :
    worth + (shares - removed) * (rewards - worth) / (total - removed) ≤
      shares * rewards / total := by
  have rest : 0 < total - removed := by linarith
  have whole : 0 < total := by linarith
  have fraction : (shares - removed) / (total - removed) ≤ 1 := by
    rw [div_le_one rest]
    linarith
  have mine : worth * (1 - (shares - removed) / (total - removed)) ≤
      removed * rewards / total * (1 - (shares - removed) / (total - removed)) :=
    mul_le_mul_of_nonneg_right below (by linarith)
  calc worth + (shares - removed) * (rewards - worth) / (total - removed)
      = worth * (1 - (shares - removed) / (total - removed)) +
          (shares - removed) * rewards / (total - removed) := by ring
    _ ≤ removed * rewards / total * (1 - (shares - removed) / (total - removed)) +
          (shares - removed) * rewards / (total - removed) := by linarith
    _ = shares * rewards / total := by
        field_simp
        ring

/-- What rounding may give an account in one call. -/
def allowance (shares rewards : ℕ) : ℚ := 1 + (shares + rewards) / accuracy

theorem allowance_shares {amount shares rewards : ℕ} (bound : amount ≤ shares) :
    (1 + amount / accuracy : ℚ) ≤ allowance shares rewards := by
  have cast : (amount : ℚ) ≤ shares + rewards := by exact_mod_cast Nat.le_add_right_of_le bound
  unfold allowance
  gcongr

theorem allowance_rewards {amount shares rewards : ℕ} (bound : amount ≤ rewards) :
    (1 + amount / accuracy : ℚ) ≤ allowance shares rewards := by
  have cast : (amount : ℚ) ≤ shares + rewards := by exact_mod_cast Nat.le_add_left_of_le bound
  unfold allowance
  gcongr

theorem allowance_nonneg (shares rewards : ℕ) : 0 ≤ allowance shares rewards := by
  unfold allowance
  positivity

/-- The figures that the potential of an account rests on. -/
structure Holds (info : PoolInfo) (data : PoolAccountInfo) : Prop where
  shares : data.shares ≤ info.totalShares
  owesNothing : data.shares = 0 → data.borrowedAmount = 0

theorem Sound.holds {info : PoolInfo} {accounts : Account → PoolAccountInfo}
    (sound : Sound info accounts) (who : Account) : Holds info (accounts who) :=
  ⟨sound.shares_le who, sound.owesNothing who⟩

section booking

variable {existentialReward amount : ℕ} {info after : PoolInfo} {call : Call}
  {data left : PoolAccountInfo} {sent : Option ℕ}

theorem potential_empty (none : info.totalShares = 0) : potential info data = info.totalRewards :=
  if_pos none

theorem potential_of_pos (some_shares : 0 < info.totalShares) : potential info data =
    data.shares * info.totalRewards / info.totalShares - data.borrowedAmount :=
  if_neg (by omega)

/-- An account with all the shares could draw all the rewards beyond its loan. -/
theorem potential_of_all (all : data.shares = info.totalShares) (some_shares : 0 < info.totalShares) :
    potential info data = info.totalRewards - data.borrowedAmount := by
  have whole : (info.totalShares : ℚ) ≠ 0 := by exact_mod_cast some_shares.ne'
  rw [potential_of_pos some_shares, all]
  field_simp

/-- An entry adds what rounding takes from the loan. -/
theorem entered_potential {loan : ℕ} (holds : Holds info data) (positive : 0 < amount)
    (price : loan = proRata info.totalRewards info.totalShares amount) :
    potential
        { info with
          totalShares := info.totalShares + amount
          totalRewards := info.totalRewards + loan }
        { shares := data.shares + amount, borrowedAmount := data.borrowedAmount + loan } ≤
      potential info data + (1 + amount / accuracy) := by
  rw [potential_of_pos (by simp only; omega)]
  simp only [Nat.cast_add]
  rcases Nat.eq_zero_or_pos info.totalShares with none | some_shares
  · have noShares : data.shares = 0 := by have := holds.shares; omega
    obtain rfl : loan = 0 := by rw [price, none, proRata_zero_whole]
    have added : (amount : ℚ) ≠ 0 := by exact_mod_cast positive.ne'
    rw [potential_empty none, none, noShares, holds.owesNothing noShares]
    have room : (0 : ℚ) ≤ 1 + amount / accuracy := by positivity
    simp only [Nat.cast_zero, zero_add, add_zero, sub_zero, mul_div_cancel_left₀ _ added]
    linarith
  · rw [potential_of_pos some_shares, price]
    apply entry_potential
    · positivity
    · exact_mod_cast some_shares
    · positivity
    · exact proRata_le_exact
    · have bound : (info.totalRewards * amount / info.totalShares : ℚ) <
          proRata info.totalRewards info.totalShares amount + 1 + amount / accuracy :=
        exact_lt_proRata
      linarith

/-- An exit that is paid and what the account could draw after it are within the potential. -/
theorem leftPaid_potential (holds : Holds info data) (positive : 0 < amount)
    (held : amount ≤ data.shares) (covers : data.released amount ≤ info.worth amount)
    (within : info.worth amount ≤ info.totalRewards) (useable : ℕ) :
    ((info.worth amount - data.released amount : ℕ) : ℚ) + potential
        { info with
          totalShares := info.totalShares - amount
          totalRewards := info.totalRewards - info.worth amount
          totalRewardsUseable := useable }
        { shares := data.shares - amount
          borrowedAmount := data.borrowedAmount - data.released amount } ≤
      potential info data := by
  have released := PoolAccountInfo.released_le held
  have part := holds.shares
  rw [Nat.cast_sub covers]
  rcases Nat.eq_or_lt_of_le (held.trans part) with all | some_left
  · -- the last shares go with all rewards and the whole loan
    have allMine : data.shares = info.totalShares := by omega
    have worth : info.worth amount = info.totalRewards := by
      rw [PoolInfo.worth, all, proRata_self (all ▸ positive)]
    have loan : data.released amount = data.borrowedAmount := by
      rw [PoolAccountInfo.released, all, allMine, proRata_self (all ▸ positive)]
    rw [potential_empty (Nat.sub_eq_zero_of_le all.ge), worth, loan,
      potential_of_all allMine (all ▸ positive), Nat.sub_self, Nat.cast_zero, add_zero]
  · rw [potential_of_pos (by simp only; omega), potential_of_pos (by omega)]
    simp only [Nat.cast_sub held, Nat.cast_sub some_left.le, Nat.cast_sub within,
      Nat.cast_sub released]
    have exit : (info.worth amount : ℚ) + (data.shares - amount) *
        (info.totalRewards - info.worth amount) / (info.totalShares - amount) ≤
        data.shares * info.totalRewards / info.totalShares := by
      apply exit_potential
      · positivity
      · exact_mod_cast part
      · exact_mod_cast some_left
      · exact proRata_le_exact
    linarith

/-- What an exit pays is within the potential, up to what rounding takes from the loan. -/
theorem leftPaid_sent (holds : Holds info data) (positive : 0 < amount)
    (held : amount ≤ data.shares) (covers : data.released amount ≤ info.worth amount) :
    ((info.worth amount - data.released amount : ℕ) : ℚ) ≤
      max 0 (potential info data) + (1 + data.borrowedAmount / accuracy) := by
  have mine : (0 : ℚ) < data.shares := by exact_mod_cast positive.trans_le held
  have total : 0 < info.totalShares := (positive.trans_le held).trans_le holds.shares
  have fraction : (amount : ℚ) / data.shares ≤ 1 := by
    rw [div_le_one mine]
    exact_mod_cast held
  have worth : (info.worth amount : ℚ) ≤ amount * info.totalRewards / info.totalShares :=
    proRata_le_exact
  have released : (amount * data.borrowedAmount / data.shares : ℚ) <
      data.released amount + 1 + data.borrowedAmount / accuracy := exact_lt_proRata
  have drawn : (amount * info.totalRewards / info.totalShares : ℚ) -
      amount * data.borrowedAmount / data.shares =
        amount / data.shares * potential info data := by
    rw [potential_of_pos total]
    field_simp
  have bounded : (amount / data.shares : ℚ) * potential info data ≤ max 0 (potential info data) := by
    calc (amount / data.shares : ℚ) * potential info data
        ≤ amount / data.shares * max 0 (potential info data) := by
          gcongr
          exact le_max_right ..
      _ ≤ 1 * max 0 (potential info data) := by gcongr
      _ = max 0 (potential info data) := one_mul _
  rw [Nat.cast_sub covers]
  linarith

/-- An exit that is not paid and releases no loan leaves the account with less to draw. -/
theorem leftUnpaid_potential (holds : Holds info data) (positive : 0 < amount)
    (held : amount ≤ data.shares) (nothing : data.released amount = 0) :
    potential { info with totalShares := info.totalShares - amount }
        { shares := data.shares - amount
          borrowedAmount := data.borrowedAmount - data.released amount } ≤
      potential info data := by
  have part := holds.shares
  rcases Nat.eq_or_lt_of_le (held.trans part) with all | some_left
  · have allMine : data.shares = info.totalShares := by omega
    have loan : data.borrowedAmount = 0 := by
      rw [← nothing, PoolAccountInfo.released, all, allMine, proRata_self (all ▸ positive)]
    rw [potential_empty (Nat.sub_eq_zero_of_le all.ge), potential_of_all allMine (all ▸ positive),
      loan, Nat.cast_zero, sub_zero]
  · rw [potential_of_pos (by simp only; omega), potential_of_pos (by omega), nothing, Nat.sub_zero]
    simp only [Nat.cast_sub held, Nat.cast_sub some_left.le]
    have exit : (0 : ℚ) + (data.shares - amount) * (info.totalRewards - 0) /
        (info.totalShares - amount) ≤ data.shares * info.totalRewards / info.totalShares := by
      apply exit_potential
      · positivity
      · exact_mod_cast part
      · exact_mod_cast some_left
      · positivity
    rw [zero_add, sub_zero] at exit
    linarith

/-- A claim takes its payment from the potential and leaves it at what rounding took. -/
theorem claimed_potential (holds : Holds info data) (some_shares : data.shares ≠ 0)
    (covers : data.borrowedAmount ≤ info.worth data.shares) (useable : ℕ) :
    0 ≤ potential { info with totalRewardsUseable := useable }
        { data with borrowedAmount := info.worth data.shares } ∧
      ((info.worth data.shares - data.borrowedAmount : ℕ) : ℚ) +
          potential { info with totalRewardsUseable := useable }
            { data with borrowedAmount := info.worth data.shares } =
        potential info data := by
  have total : 0 < info.totalShares := (Nat.pos_of_ne_zero some_shares).trans_le holds.shares
  have worth : (info.worth data.shares : ℚ) ≤
      data.shares * info.totalRewards / info.totalShares := proRata_le_exact
  have left : potential { info with totalRewardsUseable := useable }
      { data with borrowedAmount := info.worth data.shares } =
      data.shares * info.totalRewards / info.totalShares - info.worth data.shares :=
    potential_of_pos total
  rw [left, potential_of_pos total, Nat.cast_sub covers]
  constructor
  · linarith
  · ring

/-- A call pays out of the potential of the account, up to what rounding may give. -/
theorem Booking.potential_le
    (booking : Booking existentialReward info data call after left sent)
    (holds : Holds info data) (loan : data.borrowedAmount ≤ info.totalRewards)
    (tidy : stranded existentialReward info data call = 0) {shares rewards : ℕ}
    (sharesBound : after.totalShares ≤ shares) (rewardsBound : info.totalRewards ≤ rewards) :
    (sent.getD 0 : ℚ) + max 0 (potential after left) ≤
      max 0 (potential info data) + allowance shares rewards := by
  have room := allowance_nonneg shares rewards
  have start := le_max_left 0 (potential info data)
  have drawn := le_max_right 0 (potential info data)
  cases booking with
  | @entered amount loan positive price =>
    have enters := entered_potential holds positive price
    have small : (1 + amount / accuracy : ℚ) ≤ allowance shares rewards := by
      apply allowance_shares
      simp only at sharesBound
      omega
    rw [Option.getD_none, Nat.cast_zero, zero_add]
    apply max_le
    · linarith
    · linarith
  | @leftPaid amount positive inPool held covers backed sendable within =>
    have exits := leftPaid_potential holds positive held covers within
      (info.totalRewardsUseable - (info.worth amount - data.released amount))
    have pays := leftPaid_sent holds positive held covers
    have small : (1 + data.borrowedAmount / accuracy : ℚ) ≤ allowance shares rewards :=
      allowance_rewards (loan.trans rewardsBound)
    rw [Option.getD_some, ← max_add_add_left, add_zero]
    apply max_le
    · linarith
    · linarith
  | @leftUnpaid amount positive inPool held covers backed small =>
    have nothing : data.released amount = 0 := by
      rwa [stranded, if_pos small] at tidy
    have exits := leftUnpaid_potential holds positive held nothing
    rw [Option.getD_some, Nat.cast_zero, zero_add]
    apply max_le
    · linarith
    · linarith
  | claimed some_shares covers =>
    obtain ⟨left, exact⟩ := claimed_potential holds some_shares covers
      (info.totalRewardsUseable - (info.worth data.shares - data.borrowedAmount))
    rw [Option.getD_some, max_eq_right left]
    linarith
  | kept =>
    rw [Option.getD_none, Nat.cast_zero, zero_add]
    linarith

theorem Booking.lastUpdateBlock
    (booking : Booking existentialReward info data call after left sent) :
    after.lastUpdateBlock = info.lastUpdateBlock := by
  cases booking <;> rfl

end booking

/-! ## Calls of one account in a block -/

variable [DecidableEq PoolId] [DecidableEq Account]

/-- The pool was granted all rewards up to the current block. -/
def Updated (state : State config) (pool : PoolId) : Prop :=
  state.blockNumber ≤ (state.pools pool).lastUpdateBlock

omit [DecidableEq PoolId] [DecidableEq Account] in
theorem Updated.nothing_due {state : State config} {pool : PoolId} (updated : Updated state pool) :
    dueReward state pool = 0 :=
  if_pos updated

omit [DecidableEq PoolId] [DecidableEq Account] in
theorem Updated.accrued {state : State config} {pool : PoolId} (updated : Updated state pool) :
    accrued state pool = state.pools pool := by
  rw [RewardPool.accrued, updated.nothing_due, max_eq_left updated]
  rfl

instance (state : State config) (pool : PoolId) : Decidable (Updated state pool) :=
  inferInstanceAs (Decidable (_ ≤ _))

/-- The step is a call of the account on the pool, whose totals are within the bounds. -/
def OwnCall (who : Account) (pool : PoolId) (shares rewards : ℕ) (state : State config) :
    Label config → Prop
  | .call caller other _ => caller = who ∧ other = pool ∧
      (state.pools pool).totalShares ≤ shares ∧ (state.pools pool).totalRewards ≤ rewards
  | .updatePoolReward _ | .nextBlock | .elsewhere _ => False

instance (who : Account) (pool : PoolId) (shares rewards : ℕ) (state : State config)
    (label : Label config) : Decidable (OwnCall who pool shares rewards state label) :=
  match label with
  | .call _ _ _ => inferInstanceAs (Decidable (_ = _ ∧ _ = _ ∧ _ ≤ _ ∧ _ ≤ _))
  | .updatePoolReward _ => inferInstanceAs (Decidable False)
  | .nextBlock => inferInstanceAs (Decidable False)
  | .elsewhere _ => inferInstanceAs (Decidable False)

/-- What an account has and could draw from a pool. -/
def funds (state : State config) (who : Account) (pool : PoolId) : ℚ :=
  config.ledger.freeBalance state.store who +
    max 0 (potential (state.pools pool) (state.poolAccountData pool who))

/-- A call of the account within the block adds no more to its funds than rounding may give. -/
theorem ownCall_step (exact : config.ledger.Exact) {state next : State config} {who : Account}
    {pool : PoolId} {label : Label config} {out : List (Label config)} {shares rewards : ℕ}
    (sound : AllSound state) (updated : Updated state pool)
    (own : OwnCall who pool shares rewards state label) (tidy : Tidy state label)
    (taken : (pallet config).step state label = .ok (next, out))
    (sharesBound : (next.pools pool).totalShares ≤ shares) :
    Updated next pool ∧ funds next who pool ≤ funds state who pool + allowance shares rewards := by
  cases (step_moved taken).1 with
  | @booked middle _ caller other call info data sent grant booked =>
    obtain ⟨rfl, rfl, _, rewardsBound⟩ := own
    have here : middle.pools other = state.pools other := by
      rw [grant.here, updated.accrued]
    have booking := booked.booking
    rw [here, grant.accounts] at booking
    have balance := booked.pays.moves exact caller
    have credit := grant.credits exact (by simp [updated.nothing_due]) caller
    rw [updated.nothing_due, ite_self, Nat.add_zero] at credit
    rw [if_pos rfl, credit] at balance
    have after : next.pools other = info := by rw [booked.pools, Function.update_self]
    have account : next.poolAccountData other caller = data := by
      rw [booked.accounts, Function.update_self, Function.update_self]
    have loan : (state.poolAccountData other caller).borrowedAmount ≤
        (state.pools other).totalRewards := by
      have := (sound other).loan_le caller
      omega
    constructor
    · unfold Updated at updated ⊢
      rw [booked.block, grant.block, after, booking.lastUpdateBlock]
      exact updated
    · simp only [Tidy, updated.accrued] at tidy
      rw [after] at sharesBound
      have drawn := booking.potential_le ((sound other).holds caller) loan tidy sharesBound
        rewardsBound
      have received : (config.ledger.freeBalance next.store caller : ℚ) ≤
          config.ledger.freeBalance state.store caller + (sent.getD 0 : ℕ) := by
        exact_mod_cast (Nat.le_add_right _ _).trans_eq balance
      unfold funds
      rw [after, account]
      linarith
  | granted => exact own.elim
  | nextBlock => exact own.elim
  | elsewhere => exact own.elim

/-- Calls of the account within the block add no more to its funds than rounding may give in each
of them. -/
theorem ownCalls_run (exact : config.ledger.Exact) {start target : State config} {who : Account}
    {pool : PoolId} {log : List (Label config)} {shares rewards : ℕ}
    (sound : AllSound start) (updated : Updated start pool)
    (run : Machine.GuardedRun (pallet config)
      (fun state label => OwnCall who pool shares rewards state label ∧ Tidy state label)
      start log target)
    (sharesBound : (target.pools pool).totalShares ≤ shares) :
    AllSound target ∧ Updated target pool ∧
      funds target who pool ≤ funds start who pool + log.length * allowance shares rewards := by
  induction run with
  | nil => exact ⟨sound, updated, by simp⟩
  | @snoc middle next receipts out label before guard taken ih =>
    have bounded : (middle.pools pool).totalShares ≤ shares := by
      cases label with
      | call => exact guard.1.2.2.1
      | updatePoolReward => exact guard.1.elim
      | nextBlock => exact guard.1.elim
      | elsewhere => exact guard.1.elim
    obtain ⟨soundMiddle, updatedMiddle, earlier⟩ := ih bounded
    obtain ⟨updatedNext, last⟩ := ownCall_step exact soundMiddle updatedMiddle guard.1 guard.2
      taken sharesBound
    refine ⟨step_sound soundMiddle taken, updatedNext, ?_⟩
    rw [(step_moved taken).2, List.length_append, List.length_singleton]
    push_cast
    linarith

omit [DecidableEq PoolId] [DecidableEq Account] in
/-- What an account could draw is what its shares are worth beyond its loan, up to rounding, and
all rewards while nobody holds shares. -/
theorem potential_le_value {info : PoolInfo} {data : PoolAccountInfo} {value : ℕ}
    (valued : calcRewardByShares info data.shares = .ok value) :
    max 0 (potential info data) ≤ max 0 ((value : ℚ) - data.borrowedAmount) +
      (if info.totalShares = 0 then (info.totalRewards : ℚ) else 0) +
      (1 + info.totalRewards / accuracy) := by
  obtain ⟨rfl, -⟩ := calcRewardByShares_eq_ok valued
  have beyond := le_max_left 0 ((info.worth data.shares : ℚ) - data.borrowedAmount)
  have drawn := le_max_right 0 ((info.worth data.shares : ℚ) - data.borrowedAmount)
  have room : (0 : ℚ) ≤ 1 + info.totalRewards / accuracy := by positivity
  split_ifs with none
  · rw [potential_empty none, max_eq_right (Nat.cast_nonneg _)]
    linarith
  · rw [potential_of_pos (Nat.pos_of_ne_zero none)]
    have worth : (data.shares * info.totalRewards / info.totalShares : ℚ) <
        info.worth data.shares + 1 + info.totalRewards / accuracy := exact_lt_proRata
    apply max_le
    · linarith
    · linarith

/-- Within a block, an account that only calls the pool and strands no loan is paid at most what
its shares were worth beyond its loan, all rewards if nobody held shares, and a rounding allowance
for every call and one for the start. -/
theorem noProfit_in_block (exact : config.ledger.Exact) {store : config.ledger.Store}
    {blockNumber : ℕ} {start target : State config} {before log : List (Label config)}
    (reached : Machine.Run (pallet config) anyLabel (genesis store blockNumber) before start)
    {who : Account} {pool : PoolId} (updated : Updated start pool) {value shares rewards : ℕ}
    (valued : calcRewardByShares (start.pools pool) (start.poolAccountData pool who).shares =
      .ok value)
    (run : Machine.GuardedRun (pallet config)
      (fun state label => OwnCall who pool shares rewards state label ∧ Tidy state label)
      start log target)
    (sharesBound : (target.pools pool).totalShares ≤ shares)
    (rewardsBound : (start.pools pool).totalRewards ≤ rewards) :
    (config.ledger.freeBalance target.store who : ℚ) - config.ledger.freeBalance start.store who ≤
      max 0 ((value : ℚ) - (start.poolAccountData pool who).borrowedAmount) +
        (if (start.pools pool).totalShares = 0 then ((start.pools pool).totalRewards : ℚ) else 0) +
        log.length * (2 + (shares + rewards) / 10 ^ 18) + rewards / 10 ^ 18 := by
  have sound := run_sound reached
  have drawn := potential_le_value valued
  have units : (accuracy : ℚ) = 10 ^ 18 := by norm_num [accuracy]
  have beyond := le_max_left 0 ((value : ℚ) - (start.poolAccountData pool who).borrowedAmount)
  have leftover : (0 : ℚ) ≤
      if (start.pools pool).totalShares = 0 then ((start.pools pool).totalRewards : ℚ) else 0 := by
    positivity
  have rounding : ((start.pools pool).totalRewards : ℚ) / accuracy ≤ rewards / 10 ^ 18 := by
    have cast : ((start.pools pool).totalRewards : ℚ) ≤ rewards := by exact_mod_cast rewardsBound
    rw [units]
    gcongr
  have nonneg : (0 : ℚ) ≤ rewards / 10 ^ 18 := by positivity
  obtain ⟨-, -, total⟩ := ownCalls_run exact sound updated run sharesBound
  have ends := le_max_left 0 (potential (target.pools pool) (target.poolAccountData pool who))
  cases run with
  | nil =>
    simp only [List.length_nil, Nat.cast_zero, zero_mul, sub_self]
    linarith
  | @snoc middle _ receipts out label earlier guard taken =>
    have calls : (1 : ℚ) ≤ (receipts ++ out).length := by
      rw [(step_moved taken).2, List.length_append, List.length_singleton]
      exact_mod_cast Nat.le_add_left 1 receipts.length
    have each : ((receipts ++ out).length : ℚ) * (2 + (shares + rewards) / 10 ^ 18) =
        (receipts ++ out).length * allowance shares rewards + (receipts ++ out).length := by
      rw [allowance, units]
      ring
    unfold funds at total
    rw [each]
    linarith

/-- The machine of a mock pool of six units that takes only tidy calls of the first account. -/
def alicePool : Machine (State (mockPool (6 * 10 ^ 18) 1)) (Label (mockPool (6 * 10 ^ 18) 1)) Error
    (Label (mockPool (6 * 10 ^ 18) 1)) :=
  (pallet (mockPool (6 * 10 ^ 18) 1)).guarded
    (fun state label => OwnCall .alice () 9 (9 * 10 ^ 18) state label ∧ Tidy state label) .currency

/-- She adds three shares to her two of six, removes one and two of them, and claims on the rest. -/
def exitAndClaim : List (Label (mockPool (6 * 10 ^ 18) 1)) :=
  [.call .alice () (.addShare 3), .call .alice () (.removeShare 1),
    .call .alice () (.removeShare 2), .call .alice () .claimRewards]

/-- Both removals and the claim pay, in all a unit less than her two shares were worth, which is
within the bound. -/
theorem exitAndClaim_noProfit :
    let start := ((pallet (mockPool (6 * 10 ^ 18) 1)).outcome (mockGenesis (6 * 10 ^ 18) 1)
      sharedBlock).1
    let target := (alicePool.outcome start exitAndClaim).1
    (alicePool.outcome start exitAndClaim).2 = exitAndClaim ∧
      (exitAndClaim.inits.map fun calls => (alicePool.outcome start calls).1.store .alice) =
        [0, 0, 399999999999999999, 1199999999999999999, 1999999999999999997] ∧
      calcRewardByShares (start.pools ()) (start.poolAccountData () .alice).shares =
        .ok 1999999999999999998 ∧
      ((mockPool (6 * 10 ^ 18) 1).ledger.freeBalance target.store .alice : ℚ) -
          (mockPool (6 * 10 ^ 18) 1).ledger.freeBalance start.store .alice ≤
        max 0 (((1999999999999999998 : ℕ) : ℚ) -
            (start.poolAccountData () .alice).borrowedAmount) +
          (if (start.pools ()).totalShares = 0 then ((start.pools ()).totalRewards : ℚ) else 0) +
          (alicePool.outcome start exitAndClaim).2.length *
            (2 + ((9 : ℕ) + (9 * 10 ^ 18 : ℕ)) / 10 ^ 18) + (9 * 10 ^ 18 : ℕ) / 10 ^ 18 := by
  refine ⟨?_, by decide +kernel, by decide +kernel, ?_⟩
  · rfl
  · apply noProfit_in_block LedgerOps.plain_exact
      (Machine.run_outcome (fun _ _ => trivial) (by decide +kernel))
    · decide +kernel
    · decide +kernel
    · exact Machine.guardedRun_outcome (by decide +kernel)
    · decide +kernel
    · decide +kernel

/-! ## Where more is paid -/

/-- Calls of one account within a block that pay it more than its shares were worth beyond its loan
and a rounding allowance for every call. -/
structure Profit (before start : State config) (log : List (Label config)) (target : State config)
    (who : Account) (pool : PoolId) (value shares rewards : ℕ) : Prop where
  reached : ∃ earlier, Machine.Run (pallet config) anyLabel before earlier start
  updated : Updated start pool
  valued : calcRewardByShares (start.pools pool) (start.poolAccountData pool who).shares = .ok value
  run : Machine.GuardedRun (pallet config) (OwnCall who pool shares rewards) start log target
  sharesBound : (target.pools pool).totalShares ≤ shares
  rewardsBound : (target.pools pool).totalRewards ≤ rewards
  exceeds : max 0 ((value : ℚ) - (start.poolAccountData pool who).borrowedAmount) +
      log.length * (2 + (shares + rewards) / 10 ^ 18) <
    (config.ledger.freeBalance target.store who : ℚ) - config.ledger.freeBalance start.store who

section mock

variable {reward existentialReward : ℕ}

/-- The state of the mock pool after the labels. -/
def mockAfter (labels : List (Label (mockPool reward existentialReward))) :
    State (mockPool reward existentialReward) :=
  ((pallet (mockPool reward existentialReward)).outcome
    (mockGenesis reward existentialReward) labels).1

/-- What the calls of one account lead to, while the totals of the pool are within the bounds. -/
def ownAfter (who : Party) (shares rewards : ℕ) (start : State (mockPool reward existentialReward))
    (labels : List (Label (mockPool reward existentialReward))) :
    State (mockPool reward existentialReward) × List (Label (mockPool reward existentialReward)) :=
  ((pallet (mockPool reward existentialReward)).guarded (OwnCall who () shares rewards)
    .currency).outcome start labels

theorem mockAfter_reached {labels : List (Label (mockPool reward existentialReward))}
    (happens : ((pallet (mockPool reward existentialReward)).replay
      (mockGenesis reward existentialReward) labels).isOk = true) :
    ∃ log, Machine.Run (pallet (mockPool reward existentialReward)) anyLabel
      (mockGenesis reward existentialReward) log (mockAfter labels) :=
  ⟨_, Machine.run_outcome (fun _ _ => trivial) happens⟩

end mock

/-- The loan of a claim on 68 of 70 shares is rounded on another scale than that of 63 of them. -/
def skewedPool : List (Label (mockPool (10 ^ 24) 1)) :=
  [.call .alice () (.addShare 68), .call .bob () (.addShare 2), .nextBlock,
    .call .alice () .claimRewards]

/-- A reward too small to send stays in a pool without shares. -/
def emptiedPool : List (Label (mockPool 10 10)) :=
  [.call .alice () (.addShare 1), .nextBlock, .call .alice () (.removeShare 1)]

/-- Two accounts with equal shares, one of which claimed. -/
def equalPool : List (Label (mockPool 2000 1)) :=
  [.call .alice () (.addShare 100), .call .bob () (.addShare 100), .nextBlock,
    .call .alice () .claimRewards]

/-- More is paid by rounding at the start, from a pool without shares, and where a loan is
stranded. -/
theorem block_profits :
    Profit (mockGenesis (10 ^ 24) 1) (mockAfter skewedPool)
        (ownAfter .alice 70 (10 ^ 24) (mockAfter skewedPool)
          [.call .alice () (.removeShare 63)]).2
        (ownAfter .alice 70 (10 ^ 24) (mockAfter skewedPool)
          [.call .alice () (.removeShare 63)]).1
        .alice () 971428571428571428000000 70 (10 ^ 24) ∧
      Profit (mockGenesis 10 10) (mockAfter emptiedPool)
        (ownAfter .bob 1 10 (mockAfter emptiedPool)
          [.call .bob () (.addShare 1), .call .bob () .claimRewards]).2
        (ownAfter .bob 1 10 (mockAfter emptiedPool)
          [.call .bob () (.addShare 1), .call .bob () .claimRewards]).1
        .bob () 0 1 10 ∧
      Profit (mockGenesis 2000 1) (mockAfter equalPool)
        (ownAfter .alice 400 4000 (mockAfter equalPool)
          [.call .alice () (.addShare 200), .call .alice () (.removeShare 200),
            .call .alice () .claimRewards]).2
        (ownAfter .alice 400 4000 (mockAfter equalPool)
          [.call .alice () (.addShare 200), .call .alice () (.removeShare 200),
            .call .alice () .claimRewards]).1
        .alice () 1000 400 4000 := by
  refine ⟨⟨mockAfter_reached ?_, ?_, ?_, Machine.guardedRun_outcome ?_, ?_, ?_, ?_⟩,
    ⟨mockAfter_reached ?_, ?_, ?_, Machine.guardedRun_outcome ?_, ?_, ?_, ?_⟩,
    ⟨mockAfter_reached ?_, ?_, ?_, Machine.guardedRun_outcome ?_, ?_, ?_, ?_⟩⟩
  all_goals decide +kernel

end GlitchRuntime.RewardPool

import GlitchRuntime.RewardPool.Ledger

/-! # The funds behind a pool

What can be withdrawn from a pool is on its account, as long as every reward that is granted is
credited in full. The credit is a signed amount and saturates, the booking is not: a reward past
the largest signed amount is booked and not credited.
-/

namespace GlitchRuntime.RewardPool

open Lib

variable {Account PoolId : Type} {config : Config Account PoolId}

/-- A call lowers the useable rewards by what it sends. -/
theorem Booking.useable {existentialReward : ℕ} {info after : PoolInfo} {call : Call}
    {data left : PoolAccountInfo} {sent : Option ℕ}
    (booking : Booking existentialReward info data call after left sent) :
    after.totalRewardsUseable + sent.getD 0 = info.totalRewardsUseable := by
  cases booking with
  | entered => rw [Option.getD_none, Nat.add_zero]
  | leftPaid _ _ _ _ backed => rw [Option.getD_some, Nat.sub_add_cancel backed]
  | leftUnpaid => rw [Option.getD_some, Nat.add_zero]
  | claimed _ _ backed => rw [Option.getD_some, Nat.sub_add_cancel backed]
  | kept => rw [Option.getD_none, Nat.add_zero]

/-- Whether a call may send a reward. -/
def Call.mayPay : Call → Bool
  | .addShare _ => false
  | .removeShare _ | .claimRewards => true

theorem Booking.sends_nothing {existentialReward : ℕ} {info after : PoolInfo} {call : Call}
    {data left : PoolAccountInfo} {sent : Option ℕ}
    (booking : Booking existentialReward info data call after left sent)
    (silent : call.mayPay = false) : sent = none := by
  cases booking with
  | entered => rfl
  | leftPaid => contradiction
  | leftUnpaid => contradiction
  | claimed => contradiction
  | kept => rfl

variable [DecidableEq PoolId] [DecidableEq Account]

/-! ## What a step does to the funds -/

omit [DecidableEq PoolId] in
/-- A payment moves its amount from the account of the pool to the caller. -/
theorem Pays.moves (exact : config.ledger.Exact) {pool : PoolId} {who : Account}
    {before after : config.ledger.Store} {sent : Option ℕ}
    (pays : Pays config pool who before after sent) (account : Account) :
    config.ledger.freeBalance after account +
        (if account = config.subAccountId pool then sent.getD 0 else 0) =
      config.ledger.freeBalance before account + if account = who then sent.getD 0 else 0 := by
  cases sent with
  | none =>
    obtain rfl : after = before := pays
    simp
  | some amount => exact exact.transfer pays account

/-- The account of a pool is credited its reward as far as a signed amount goes. -/
theorem Granted.credits_limited (exact : config.ledger.Exact) {state middle : State config}
    {pool : PoolId} (grant : Granted state pool middle) (account : Account) :
    config.ledger.freeBalance middle.store account =
      config.ledger.freeBalance state.store account +
        if account = config.subAccountId pool then min (dueReward state pool) maxAmount else 0 := by
  rcases grant.credited with ⟨nothing, same⟩ | credited
  · rw [same, nothing]
    simp
  · have moved := exact.updateBalance credited account
    split_ifs at moved ⊢ with here
    · exact_mod_cast moved
    · omega

/-- A reward that has a sign is credited in full. -/
theorem Granted.credits (exact : config.ledger.Exact) {state middle : State config}
    {pool : PoolId} (grant : Granted state pool middle)
    (creditable : dueReward state pool ≤ maxAmount) (account : Account) :
    config.ledger.freeBalance middle.store account =
      config.ledger.freeBalance state.store account +
        if account = config.subAccountId pool then dueReward state pool else 0 := by
  rw [grant.credits_limited exact, Nat.min_eq_left creditable]

/-! ## Steps that keep the funds -/

/-- The reward that a step grants. -/
def grantedReward (state : State config) : Label config → ℕ
  | .call _ pool _ => dueReward state pool
  | .updatePoolReward pool => dueReward state pool
  | .nextBlock | .elsewhere _ => 0

/-- What happens elsewhere takes nothing from the accounts of the pools. -/
def Undebited (state : State config) : Label config → Prop
  | .elsewhere store => ∀ pool, config.ledger.freeBalance state.store (config.subAccountId pool) ≤
      config.ledger.freeBalance store (config.subAccountId pool)
  | .call _ _ _ | .updatePoolReward _ | .nextBlock => True

/-- The reward that the step grants has a sign, and only the module debits its accounts. -/
def Creditable (state : State config) (label : Label config) : Prop :=
  grantedReward state label ≤ maxAmount ∧ Undebited state label

/-- Nobody else credits the account of a pool: no payment goes to it, no other pool uses it, and
what happens elsewhere leaves it alone. -/
def Alone (pool : PoolId) (state : State config) : Label config → Prop
  | .call who other call =>
    (other ≠ pool → config.subAccountId other ≠ config.subAccountId pool) ∧
      (who = config.subAccountId pool → call.mayPay = false)
  | .updatePoolReward other =>
    other ≠ pool → config.subAccountId other ≠ config.subAccountId pool
  | .nextBlock => True
  | .elsewhere store => config.ledger.freeBalance store (config.subAccountId pool) =
      config.ledger.freeBalance state.store (config.subAccountId pool)

instance [Fintype PoolId] (state : State config) (label : Label config) :
    Decidable (Undebited state label) :=
  match label with
  | .elsewhere _ => inferInstanceAs (Decidable (∀ _, _ ≤ _))
  | .call _ _ _ => inferInstanceAs (Decidable True)
  | .updatePoolReward _ => inferInstanceAs (Decidable True)
  | .nextBlock => inferInstanceAs (Decidable True)

instance [Fintype PoolId] (state : State config) (label : Label config) :
    Decidable (Creditable state label) :=
  inferInstanceAs (Decidable (_ ∧ _))

instance (pool : PoolId) (state : State config) (label : Label config) :
    Decidable (Alone pool state label) :=
  match label with
  | .call _ _ _ => inferInstanceAs (Decidable ((_ → _ ≠ _) ∧ (_ = _ → _ = _)))
  | .updatePoolReward _ => inferInstanceAs (Decidable (_ → _ ≠ _))
  | .nextBlock => inferInstanceAs (Decidable True)
  | .elsewhere _ => inferInstanceAs (Decidable (_ = _))

/-- The pools that share an account can be paid out of it together. -/
def Backed (pools : PoolId → PoolInfo) (store : config.ledger.Store) : Prop :=
  ∀ (shared : Finset PoolId) (account : Account),
    (∀ pool ∈ shared, config.subAccountId pool = account) →
      ∑ pool ∈ shared, (pools pool).totalRewardsUseable ≤ config.ledger.freeBalance store account

theorem sum_useable {pools : PoolId → PoolInfo} (pool : PoolId) (info : PoolInfo)
    (shared : Finset PoolId) :
    ∑ other ∈ shared, (Function.update pools pool info other).totalRewardsUseable =
      ∑ other ∈ shared, Function.update (fun other => (pools other).totalRewardsUseable) pool
        info.totalRewardsUseable other := by
  rw [← field_write PoolInfo.totalRewardsUseable]

/-- Crediting the account of a pool with what the pool may pay more keeps it backed. -/
theorem Backed.credit {pools : PoolId → PoolInfo} {before after : config.ledger.Store}
    (backed : Backed pools before) {pool : PoolId} {info : PoolInfo} {amount : ℕ}
    (useable : info.totalRewardsUseable = (pools pool).totalRewardsUseable + amount)
    (moved : ∀ account, config.ledger.freeBalance after account =
      config.ledger.freeBalance before account +
        if account = config.subAccountId pool then amount else 0) :
    Backed (Function.update pools pool info) after := by
  intro shared account uses
  have funds := backed shared account uses
  rw [moved, sum_useable]
  by_cases member : pool ∈ shared
  · have written := sum_write member (fun other => (pools other).totalRewardsUseable)
      info.totalRewardsUseable
    rw [if_pos (uses pool member).symm]
    omega
  · rw [sum_write_apart member]
    omega

/-- Paying from the account of a pool what the pool may pay less keeps it backed. -/
theorem Backed.pay {pools : PoolId → PoolInfo} {before after : config.ledger.Store}
    (backed : Backed pools before) {pool : PoolId} {who : Account} {info : PoolInfo} {amount : ℕ}
    (useable : info.totalRewardsUseable + amount = (pools pool).totalRewardsUseable)
    (moved : ∀ account, config.ledger.freeBalance after account +
        (if account = config.subAccountId pool then amount else 0) =
      config.ledger.freeBalance before account + if account = who then amount else 0) :
    Backed (Function.update pools pool info) after := by
  intro shared account uses
  rw [sum_useable]
  have balance := moved account
  by_cases member : pool ∈ shared
  · have funds := backed shared account uses
    have written := sum_write member (fun other => (pools other).totalRewardsUseable)
      info.totalRewardsUseable
    rw [if_pos (uses pool member).symm] at balance
    omega
  · rw [sum_write_apart member]
    by_cases here : account = config.subAccountId pool
    · -- the funds of this pool are beside those of the others
      have funds := backed (insert pool shared) account (by
        intro other joined
        rcases Finset.mem_insert.mp joined with rfl | other
        · exact here.symm
        · exact uses _ other)
      rw [Finset.sum_insert member] at funds
      rw [if_pos here] at balance
      omega
    · have funds := backed shared account uses
      rw [if_neg here] at balance
      omega

/-- A step that credits its reward in full keeps every pool backed. -/
theorem step_backed (exact : config.ledger.Exact) {state next : State config}
    {label : Label config} {out : List (Label config)} (backed : Backed state.pools state.store)
    (creditable : Creditable state label)
    (taken : (pallet config).step state label = .ok (next, out)) :
    Backed next.pools next.store := by
  have grants {pool : PoolId} {middle : State config} (grant : Granted state pool middle)
      (fits : dueReward state pool ≤ maxAmount) : Backed middle.pools middle.store := by
    rw [grant.pools]
    exact backed.credit rfl (grant.credits exact fits)
  cases (step_moved taken).1 with
  | @booked middle _ who pool call info data sent grant booked =>
    rw [booked.pools]
    exact (grants grant creditable.1).pay booked.booking.useable (booked.pays.moves exact)
  | granted grant => exact grants grant creditable.1
  | nextBlock => exact backed
  | elsewhere =>
    intro shared account uses
    rcases shared.eq_empty_or_nonempty with rfl | ⟨pool, member⟩
    · simp
    · obtain rfl := uses pool member
      exact (backed shared _ uses).trans (creditable.2 pool)

/-- The balance of the account of a pool is what can be withdrawn from it. -/
def Exhausts (pool : PoolId) (state : State config) : Prop :=
  config.ledger.freeBalance state.store (config.subAccountId pool) =
    (state.pools pool).totalRewardsUseable

/-- A step that credits its reward in full, and nobody else, leaves nothing over. -/
theorem step_exhausts (exact : config.ledger.Exact) {state next : State config} {pool : PoolId}
    {label : Label config} {out : List (Label config)} (exhausts : Exhausts pool state)
    (creditable : Creditable state label) (alone : Alone pool state label)
    (taken : (pallet config).step state label = .ok (next, out)) : Exhausts pool next := by
  have grants {other : PoolId} {middle : State config} (grant : Granted state other middle)
      (fits : dueReward state other ≤ maxAmount)
      (apart : other ≠ pool → config.subAccountId other ≠ config.subAccountId pool) :
      Exhausts pool middle := by
    have moved := grant.credits exact fits (config.subAccountId pool)
    unfold Exhausts at exhausts ⊢
    rw [moved, grant.pools, exhausts]
    by_cases same : pool = other
    · subst same
      rw [if_pos rfl, Function.update_self]
      rfl
    · rw [if_neg (apart (Ne.symm same)).symm, Function.update_of_ne same, Nat.add_zero]
  cases (step_moved taken).1 with
  | @booked middle _ who other call info data sent grant booked =>
    have before := grants grant creditable.1 alone.1
    have moved := booked.pays.moves exact (config.subAccountId pool)
    have useable := booked.booking.useable
    have kept : (if config.subAccountId pool = who then sent.getD 0 else 0) = 0 := by
      split_ifs with payee
      · rw [booked.booking.sends_nothing (alone.2 payee.symm)]
        rfl
      · rfl
    unfold Exhausts at before ⊢
    rw [kept] at moved
    rw [booked.pools]
    by_cases same : pool = other
    · subst same
      rw [if_pos rfl] at moved
      rw [Function.update_self]
      omega
    · rw [if_neg (alone.1 (Ne.symm same)).symm] at moved
      rw [Function.update_of_ne same]
      omega
  | granted grant => exact grants grant creditable.1 alone
  | nextBlock => exact exhausts
  | elsewhere => exact alone.trans exhausts

/-- In every state reached the shares add up. As long as every reward is credited in full, the
account of a pool has what can be withdrawn; and nothing else, if nobody else credits it. -/
theorem shares_and_funds {store : config.ledger.Store} {blockNumber : ℕ} {target : State config}
    {log : List (Label config)} (exact : config.ledger.Exact)
    (run : Machine.Run (pallet config) anyLabel (genesis store blockNumber) log target)
    (pool : PoolId) :
    holdings (target.poolAccountData pool) = (target.pools pool).totalShares ∧
      (Machine.GuardedRun (pallet config) Creditable (genesis store blockNumber) log target →
        (target.pools pool).totalRewardsUseable ≤
          config.ledger.freeBalance target.store (config.subAccountId pool)) ∧
      (Machine.GuardedRun (pallet config)
          (fun state label => Creditable state label ∧ Alone pool state label)
          (genesis store blockNumber) log target →
        config.ledger.freeBalance store (config.subAccountId pool) = 0 →
        config.ledger.freeBalance target.store (config.subAccountId pool) =
          (target.pools pool).totalRewardsUseable) := by
  refine ⟨(run_sound run pool).shares, fun credited => ?_, fun alone nothing => ?_⟩
  · have backed := credited.preserves (fun state _ => Backed state.pools state.store)
      (fun _ _ _ => by simp [genesis]) fun backed creditable taken =>
        step_backed exact backed creditable taken
    simpa using backed {pool} _ (by simp)
  · exact alone.preserves (fun state _ => Exhausts pool state) nothing
      fun exhausts guard taken => step_exhausts exact exhausts guard.1 guard.2 taken

/-- The machine of a mock pool that takes only credited steps and leaves its account alone. -/
def quietPool : Machine (State (mockPool 10 4)) (Label (mockPool 10 4)) Error
    (Label (mockPool 10 4)) :=
  (pallet (mockPool 10 4)).guarded
    (fun state label => Creditable state label ∧ Alone () state label) .currency

/-- After a paid removal the account holds exactly the reward that is left. -/
theorem paidRemoval_funds :
    (mockPool 10 4).ledger.freeBalance (quietPool.outcome (mockGenesis 10 4) paidRemoval).1.store
        .vault =
      ((quietPool.outcome (mockGenesis 10 4) paidRemoval).1.pools ()).totalRewardsUseable := by
  have guarded : Machine.GuardedRun (pallet (mockPool 10 4))
      (fun state label => Creditable state label ∧ Alone () state label) (mockGenesis 10 4)
      (quietPool.outcome (mockGenesis 10 4) paidRemoval).2
      (quietPool.outcome (mockGenesis 10 4) paidRemoval).1 :=
    Machine.guardedRun_outcome (by decide +kernel)
  exact (shares_and_funds LedgerOps.plain_exact (guarded.run fun _ _ _ => trivial) ()).2.2 guarded
    rfl

/-- A block with a reward past the largest signed amount. -/
def largeReward : List (Label (mockPool (2 ^ 127) 4)) :=
  [.call .alice () (.addShare 1), .nextBlock, .updatePoolReward ()]

/-- Such a reward is booked in full and credited short. -/
theorem largeReward_unbacked :
    let state := ((pallet (mockPool (2 ^ 127) 4)).outcome (mockGenesis (2 ^ 127) 4) largeReward).1
    (∃ log, Machine.Run (pallet (mockPool (2 ^ 127) 4)) anyLabel (mockGenesis (2 ^ 127) 4) log
        state) ∧
      (mockPool (2 ^ 127) 4).ledger.freeBalance state.store .vault <
        (state.pools ()).totalRewardsUseable := by
  refine ⟨⟨_, Machine.run_outcome (fun _ _ => trivial) ?_⟩, ?_⟩
  · decide +kernel
  · decide +kernel

end GlitchRuntime.RewardPool

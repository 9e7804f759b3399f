import GlitchRuntime.Lib.Totals
import GlitchRuntime.RewardPool.Bookings

/-! # The ledger of a pool

The shares of all accounts add up to those of the pool, and the rewards of a pool are what can be
withdrawn and what accounts borrowed. The second holds as long as no loan is released without a
payment: a reward too small to send releases the loan of the removed shares and leaves the virtual
reward that it stood for in the pool.
-/

namespace GlitchRuntime.RewardPool

open Lib

variable {Account PoolId : Type} {config : Config Account PoolId}

/-! ## What a booking moves -/

/-- The loan that a removal releases without paying. -/
def stranded (existentialReward : ℕ) (info : PoolInfo) (data : PoolAccountInfo) : Call → ℕ
  | .removeShare amount =>
    if info.worth amount - data.released amount ≤ existentialReward then data.released amount
    else 0
  | .addShare _ | .claimRewards => 0

section booking

variable {existentialReward : ℕ} {info after : PoolInfo} {call : Call}
  {data left : PoolAccountInfo} {sent : Option ℕ}

/-- A call moves the shares of the pool as those of the account. -/
theorem Booking.shares
    (booking : Booking existentialReward info data call after left sent) :
    after.totalShares + data.shares = info.totalShares + left.shares := by
  cases booking with
  | entered => simp only; omega
  | leftPaid => simp only; omega
  | leftUnpaid => simp only; omega
  | claimed => rfl
  | kept => rfl

/-- A call moves the rewards of the pool as the useable ones and the loan, but for what it
strands. -/
theorem Booking.rewards
    (booking : Booking existentialReward info data call after left sent) :
    after.totalRewards + info.totalRewardsUseable + data.borrowedAmount =
      info.totalRewards + after.totalRewardsUseable + left.borrowedAmount +
        stranded existentialReward info data call := by
  cases booking with
  | entered => simp only [stranded]; omega
  | @leftPaid amount positive inPool held covers backed sendable within =>
    have released := PoolAccountInfo.released_le held
    simp only [stranded, if_neg (Nat.not_le.mpr sendable)]
    omega
  | @leftUnpaid amount positive inPool held covers backed small =>
    have released := PoolAccountInfo.released_le held
    simp only [stranded, if_pos small]
    omega
  | claimed => simp only [stranded]; omega
  | kept => simp only [stranded]; omega

/-- An account without shares owes nothing after a call if it owed nothing before. -/
theorem Booking.owesNothing
    (booking : Booking existentialReward info data call after left sent)
    (before : data.shares = 0 → data.borrowedAmount = 0)
    (empty : left.shares = 0) : left.borrowedAmount = 0 := by
  -- who removes all shares releases the whole loan
  have emptied {amount : ℕ} (positive : 0 < amount) (held : amount ≤ data.shares)
      (none : data.shares - amount = 0) :
      data.borrowedAmount - data.released amount = 0 := by
    obtain rfl : amount = data.shares := by omega
    rw [PoolAccountInfo.released, proRata_self positive, Nat.sub_self]
  cases booking with
  | entered positive => simp only at empty; omega
  | leftPaid positive _ held => exact emptied positive held empty
  | leftUnpaid positive _ held => exact emptied positive held empty
  | claimed holds => exact absurd empty holds
  | kept => exact before empty

theorem Booking.fits
    (booking : Booking existentialReward info data call after left sent)
    (sharesFit : info.totalShares < 2 ^ 128) (rewardsFit : info.totalRewards < 2 ^ 128) :
    after.totalShares < 2 ^ 128 ∧ after.totalRewards < 2 ^ 128 := by
  cases booking with
  | entered _ _ sharesFit rewardsFit => exact ⟨sharesFit, rewardsFit⟩
  | leftPaid => simp only; omega
  | leftUnpaid => simp only; omega
  | claimed => exact ⟨sharesFit, rewardsFit⟩
  | kept => exact ⟨sharesFit, rewardsFit⟩

end booking

variable [DecidableEq PoolId] [DecidableEq Account]

/-! ## One pool in a step -/

/-- The pool that a label is about. -/
def Label.pool : Label config → Option PoolId
  | .call _ pool _ => some pool
  | .updatePoolReward pool => some pool
  | .nextBlock | .elsewhere _ => none

/-- What a step does to the figures of one pool. -/
inductive AtPool (state : State config) (pool : PoolId) :
    Label config → PoolInfo → (Account → PoolAccountInfo) → Prop
  | still {label : Label config} (apart : label.pool ≠ some pool) :
      AtPool state pool label (state.pools pool) (state.poolAccountData pool)
  | granted (fits : dueReward state pool ≠ 0 → (accrued state pool).totalRewards < 2 ^ 128) :
      AtPool state pool (.updatePoolReward pool) (accrued state pool) (state.poolAccountData pool)
  | booked {who : Account} {call : Call} {info : PoolInfo} {data : PoolAccountInfo}
      {sent : Option ℕ}
      (fits : dueReward state pool ≠ 0 → (accrued state pool).totalRewards < 2 ^ 128)
      (booking : Booking config.existentialReward (accrued state pool)
        (state.poolAccountData pool who) call info data sent) :
      AtPool state pool (.call who pool call) info
        (Function.update (state.poolAccountData pool) who data)

theorem Moved.atPool {state next : State config} {label : Label config}
    (moved : Moved state label next) (pool : PoolId) :
    AtPool state pool label (next.pools pool) (next.poolAccountData pool) := by
  cases moved with
  | @booked middle _ who other call info data sent grant booked =>
    rw [booked.pools, booked.accounts, grant.pools, grant.accounts]
    by_cases same : pool = other
    · subst same
      simp only [Function.update_self]
      apply AtPool.booked grant.fits
      have booking := booked.booking
      rwa [grant.here, grant.accounts] at booking
    · simp only [Function.update_of_ne same]
      exact .still fun names => same (Option.some.inj names).symm
  | @granted _ other grant =>
    rw [grant.pools, grant.accounts]
    by_cases same : pool = other
    · subst same
      rw [Function.update_self]
      exact .granted grant.fits
    · rw [Function.update_of_ne same]
      exact .still fun names => same (Option.some.inj names).symm
  | nextBlock => exact .still (by simp [Label.pool])
  | elsewhere => exact .still (by simp [Label.pool])

/-! ## Totals -/

/-- The loans of all accounts: the virtual rewards of the pool. -/
noncomputable def loans (accounts : Account → PoolAccountInfo) : ℕ :=
  ∑ᶠ who, (accounts who).borrowedAmount

/-- The shares of all accounts. -/
noncomputable def holdings (accounts : Account → PoolAccountInfo) : ℕ :=
  ∑ᶠ who, (accounts who).shares

/-- The figures of a pool and of its accounts agree. -/
structure Sound (info : PoolInfo) (accounts : Account → PoolAccountInfo) : Prop where
  finiteShares : FiniteTable fun who => (accounts who).shares
  finiteLoans : FiniteTable fun who => (accounts who).borrowedAmount
  shares : holdings accounts = info.totalShares
  rewards : info.totalRewardsUseable + loans accounts ≤ info.totalRewards
  owesNothing : ∀ who, (accounts who).shares = 0 → (accounts who).borrowedAmount = 0
  sharesFit : info.totalShares < 2 ^ 128
  rewardsFit : info.totalRewards < 2 ^ 128

namespace Sound

variable {info after : PoolInfo} {accounts : Account → PoolAccountInfo}

omit [DecidableEq Account] in
theorem shares_le (sound : Sound info accounts) (who : Account) :
    (accounts who).shares ≤ info.totalShares := by
  rw [← sound.shares]
  exact sound.finiteShares.entry_le_total who

omit [DecidableEq Account] in
theorem loan_le (sound : Sound info accounts) (who : Account) :
    info.totalRewardsUseable + (accounts who).borrowedAmount ≤ info.totalRewards := by
  have single : (accounts who).borrowedAmount ≤ loans accounts :=
    sound.finiteLoans.entry_le_total who
  have rewards := sound.rewards
  omega

end Sound

theorem holdings_write {accounts : Account → PoolAccountInfo}
    (finite : FiniteTable fun who => (accounts who).shares) (who : Account)
    (data : PoolAccountInfo) :
    holdings (Function.update accounts who data) + (accounts who).shares =
      holdings accounts + data.shares := by
  unfold holdings
  rw [field_write PoolAccountInfo.shares]
  exact finite.total_write who data.shares

theorem loans_write {accounts : Account → PoolAccountInfo}
    (finite : FiniteTable fun who => (accounts who).borrowedAmount) (who : Account)
    (data : PoolAccountInfo) :
    loans (Function.update accounts who data) + (accounts who).borrowedAmount =
      loans accounts + data.borrowedAmount := by
  unfold loans
  rw [field_write PoolAccountInfo.borrowedAmount]
  exact finite.total_write who data.borrowedAmount

/-! ## Figures that stay in agreement -/

/-- A call keeps the figures in agreement. -/
theorem Sound.book {existentialReward : ℕ} {info after : PoolInfo}
    {accounts : Account → PoolAccountInfo} {who : Account} {call : Call} {data : PoolAccountInfo}
    {sent : Option ℕ} (sound : Sound info accounts)
    (booking : Booking existentialReward info (accounts who) call after data sent) :
    Sound after (Function.update accounts who data) where
  finiteShares := by
    rw [field_write PoolAccountInfo.shares]
    exact sound.finiteShares.write who data.shares
  finiteLoans := by
    rw [field_write PoolAccountInfo.borrowedAmount]
    exact sound.finiteLoans.write who data.borrowedAmount
  shares := by
    have written := holdings_write sound.finiteShares who data
    have moved := booking.shares
    have held := sound.shares
    omega
  rewards := by
    have written := loans_write sound.finiteLoans who data
    have moved := booking.rewards
    have held := sound.rewards
    omega
  owesNothing other empty := by
    by_cases same : other = who
    · subst same
      rw [Function.update_self] at empty ⊢
      exact booking.owesNothing (sound.owesNothing other) empty
    · rw [Function.update_of_ne same] at empty ⊢
      exact sound.owesNothing other empty
  sharesFit := (booking.fits sound.sharesFit sound.rewardsFit).1
  rewardsFit := (booking.fits sound.sharesFit sound.rewardsFit).2

omit [DecidableEq PoolId] [DecidableEq Account] in
/-- Granting rewards that fit keeps the figures in agreement. -/
theorem Sound.grant {state : State config} {pool : PoolId} {accounts : Account → PoolAccountInfo}
    (sound : Sound (state.pools pool) accounts)
    (fits : dueReward state pool ≠ 0 → (accrued state pool).totalRewards < 2 ^ 128) :
    Sound (accrued state pool) accounts where
  finiteShares := sound.finiteShares
  finiteLoans := sound.finiteLoans
  shares := sound.shares
  rewards := by
    have held := sound.rewards
    simp only [accrued]
    omega
  owesNothing := sound.owesNothing
  sharesFit := sound.sharesFit
  rewardsFit := by
    by_cases nothing : dueReward state pool = 0
    · have held := sound.rewardsFit
      simpa [accrued, nothing] using held
    · exact fits nothing

/-- The figures of every pool agree. -/
def AllSound (state : State config) : Prop :=
  ∀ pool, Sound (state.pools pool) (state.poolAccountData pool)

omit [DecidableEq PoolId] in
theorem AtPool.sound {state : State config} {pool : PoolId} {label : Label config}
    {info : PoolInfo} {accounts : Account → PoolAccountInfo}
    (atPool : AtPool state pool label info accounts)
    (sound : Sound (state.pools pool) (state.poolAccountData pool)) : Sound info accounts := by
  cases atPool with
  | still => exact sound
  | granted fits => exact sound.grant fits
  | booked fits booking => exact (sound.grant fits).book booking

omit [DecidableEq PoolId] [DecidableEq Account] in
theorem genesis_sound (store : config.ledger.Store) (blockNumber : ℕ) :
    AllSound (genesis store blockNumber : State config) := by
  intro pool
  constructor
  · exact .blank
  · exact .blank
  · exact finsum_zero
  · simp [genesis, loans]
  · exact fun _ _ => rfl
  · norm_num [genesis]
  · norm_num [genesis]

/-- Every step keeps the figures of all pools in agreement. -/
theorem step_sound {state next : State config} {label : Label config} {out : List (Label config)}
    (sound : AllSound state) (taken : (pallet config).step state label = .ok (next, out)) :
    AllSound next :=
  fun pool => ((step_moved taken).1.atPool pool).sound (sound pool)

/-- Every label of the machine. -/
def anyLabel (_ : Label config) : Prop := True

/-- In every state reached the figures of all pools agree. -/
theorem run_sound {store : config.ledger.Store} {blockNumber : ℕ} {target : State config}
    {log : List (Label config)}
    (run : Machine.Run (pallet config) anyLabel (genesis store blockNumber) log target) :
    AllSound target :=
  run.preserves (fun state _ => AllSound state) (genesis_sound store blockNumber)
    fun sound _ taken => step_sound sound taken

/-! ## The identity -/

/-- The rewards of a pool are those that can be withdrawn and the virtual ones. -/
def Identity (info : PoolInfo) (accounts : Account → PoolAccountInfo) : Prop :=
  info.totalRewards = info.totalRewardsUseable + loans accounts

/-- A removal pays, or releases no loan. -/
def Tidy (state : State config) : Label config → Prop
  | .call who pool call =>
    stranded config.existentialReward (accrued state pool) (state.poolAccountData pool who) call = 0
  | .updatePoolReward _ | .nextBlock | .elsewhere _ => True

instance (state : State config) (label : Label config) : Decidable (Tidy state label) :=
  match label with
  | .call _ _ _ => inferInstanceAs (Decidable (_ = 0))
  | .updatePoolReward _ => inferInstanceAs (Decidable True)
  | .nextBlock => inferInstanceAs (Decidable True)
  | .elsewhere _ => inferInstanceAs (Decidable True)

omit [DecidableEq PoolId] in
/-- After a step on a pool its identity holds when it held before and the step was tidy. -/
theorem AtPool.identity_iff {state : State config} {pool : PoolId} {label : Label config}
    {info : PoolInfo} {accounts : Account → PoolAccountInfo}
    (atPool : AtPool state pool label info accounts)
    (sound : Sound (state.pools pool) (state.poolAccountData pool)) :
    Identity info accounts ↔ Identity (state.pools pool) (state.poolAccountData pool) ∧
      (label.pool = some pool → Tidy state label) := by
  unfold Identity
  cases atPool with
  | still apart => simp [apart]
  | granted =>
    simp only [accrued, Tidy, implies_true, and_true]
    omega
  | @booked who call info data sent fits booking =>
    have grant := (sound.grant fits).rewards
    have written := loans_write sound.finiteLoans who data
    have moved := booking.rewards
    simp only [Label.pool, Tidy, true_imp_iff]
    simp only [accrued] at grant moved ⊢
    omega

/-- After a step every identity holds when every one held before and the step was tidy. -/
theorem step_identity_iff {state next : State config} {label : Label config}
    {out : List (Label config)} (sound : AllSound state)
    (taken : (pallet config).step state label = .ok (next, out)) :
    (∀ pool, Identity (next.pools pool) (next.poolAccountData pool)) ↔
      (∀ pool, Identity (state.pools pool) (state.poolAccountData pool)) ∧ Tidy state label := by
  have atPool pool := ((step_moved taken).1.atPool pool).identity_iff (sound pool)
  constructor
  · intro after
    refine ⟨fun pool => ((atPool pool).mp (after pool)).1, ?_⟩
    cases label with
    | call who pool call => exact ((atPool pool).mp (after pool)).2 rfl
    | updatePoolReward => trivial
    | nextBlock => trivial
    | elsewhere => trivial
  · rintro ⟨before, tidy⟩ pool
    exact (atPool pool).mpr ⟨before pool, fun _ => tidy⟩

omit [DecidableEq PoolId] [DecidableEq Account] in
theorem genesis_identity (store : config.ledger.Store) (blockNumber : ℕ) (pool : PoolId) :
    Identity ((genesis store blockNumber : State config).pools pool)
      ((genesis store blockNumber : State config).poolAccountData pool) := by
  simp [Identity, genesis, loans]

/-- After a run the identity holds for every pool exactly when every step of the run was tidy. -/
theorem ledger_identity_iff {store : config.ledger.Store} {blockNumber : ℕ}
    {target : State config} {log : List (Label config)}
    (run : Machine.Run (pallet config) anyLabel (genesis store blockNumber) log target) :
    (∀ pool, Identity (target.pools pool) (target.poolAccountData pool)) ↔
      Machine.GuardedRun (pallet config) Tidy (genesis store blockNumber) log target := by
  apply run.iff_guardedRun (genesis_sound store blockNumber)
  · exact genesis_identity store blockNumber
  · exact fun sound taken => step_sound sound taken
  · exact fun sound taken => step_identity_iff sound taken

/-! ## A pool of two accounts -/

/-- Two accounts that hold shares, and the account of the pool. -/
inductive Party
  | alice
  | bob
  | vault
deriving DecidableEq

instance : Fintype Party where
  elems := {.alice, .bob, .vault}
  complete party := by cases party <;> decide

/-- One pool over plain balances that grants the same reward for every block. -/
def mockPool (reward existentialReward : ℕ) : Config Party Unit where
  ledger := .plain Party
  subAccountId _ := .vault
  caculateReward _ _ shares lastUpdateBlock now :=
    if shares = 0 then 0 else reward * (now - lastUpdateBlock)
  existentialReward := existentialReward

/-- The empty pool, with no balances. -/
def mockGenesis (reward existentialReward : ℕ) : State (mockPool reward existentialReward) :=
  genesis (fun _ : Party => 0) 0

theorem loans_party (accounts : Party → PoolAccountInfo) :
    loans accounts = (accounts .alice).borrowedAmount +
      ((accounts .bob).borrowedAmount + (accounts .vault).borrowedAmount) := by
  rw [loans, finsum_eq_sum_of_fintype]
  rfl

/-- Two shares at a price of ten, and one of them removed in the block of the second. -/
def quickRemoval : List (Label (mockPool 10 10)) :=
  [.call .alice () (.addShare 1), .nextBlock, .call .alice () (.addShare 1),
    .call .alice () (.removeShare 1)]

/-- The same with a reward that can be sent. -/
def paidRemoval : List (Label (mockPool 10 4)) :=
  [.call .alice () (.addShare 1), .nextBlock, .call .alice () (.addShare 1),
    .call .alice () (.removeShare 1)]

/-- A run that pays for its removal ends with the identity: of ten, half is a loan. -/
theorem paidRemoval_identity :
    let state := ((pallet (mockPool 10 4)).outcome (mockGenesis 10 4) paidRemoval).1
    (∀ pool, Identity (state.pools pool) (state.poolAccountData pool)) ∧
      (state.pools ()).totalRewards = 10 ∧ (state.pools ()).totalRewardsUseable = 5 := by
  refine ⟨(ledger_identity_iff (Machine.run_outcome (fun _ _ => trivial) ?_)).mpr
    (Machine.guardedRun_of_replay .currency ?_), ?_⟩
  · decide +kernel
  · decide +kernel
  · decide +kernel

/-- A removal whose reward is too small to send leaves a virtual reward that nobody borrowed. -/
theorem quickRemoval_strands :
    Machine.Run (pallet (mockPool 10 10)) anyLabel (mockGenesis 10 10)
        ((pallet (mockPool 10 10)).outcome (mockGenesis 10 10) quickRemoval).2
        ((pallet (mockPool 10 10)).outcome (mockGenesis 10 10) quickRemoval).1 ∧
      ¬ Identity (((pallet (mockPool 10 10)).outcome (mockGenesis 10 10) quickRemoval).1.pools ())
        (((pallet (mockPool 10 10)).outcome (mockGenesis 10 10) quickRemoval).1.poolAccountData ()) := by
  refine ⟨Machine.run_outcome (fun _ _ => trivial) (by decide +kernel), ?_⟩
  rw [Identity, loans_party]
  decide +kernel

end GlitchRuntime.RewardPool

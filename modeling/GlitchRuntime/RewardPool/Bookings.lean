import GlitchRuntime.RewardPool.Pallet

/-! # What a call books

Every call first grants the pool its rewards, then moves the figures of the pool and of the caller
in one of five ways. Everything that is proved about runs of the pool splits on these.
-/

namespace GlitchRuntime.RewardPool

open Lib FixedU128

variable {Account PoolId : Type} {config : Config Account PoolId}

/-- The worth of so many shares of a pool, virtual amounts included. -/
def PoolInfo.worth (info : PoolInfo) (amount : ℕ) : ℕ :=
  proRata amount info.totalShares info.totalRewards

/-- The part of a loan that goes with so many of the shares. -/
def PoolAccountInfo.released (data : PoolAccountInfo) (amount : ℕ) : ℕ :=
  proRata amount data.shares data.borrowedAmount

theorem PoolAccountInfo.released_le {data : PoolAccountInfo} {amount : ℕ}
    (held : amount ≤ data.shares) : data.released amount ≤ data.borrowedAmount :=
  proRata_le held

/-- The figures of a pool and an account before and after a call, and what was sent. -/
inductive Booking (existentialReward : ℕ) (info : PoolInfo) (data : PoolAccountInfo) :
    Call → PoolInfo → PoolAccountInfo → Option ℕ → Prop
  | entered {amount loan : ℕ} (positive : 0 < amount)
      (price : loan = proRata info.totalRewards info.totalShares amount)
      (sharesFit : info.totalShares + amount < 2 ^ 128)
      (rewardsFit : info.totalRewards + loan < 2 ^ 128) :
      Booking existentialReward info data (.addShare amount)
        { info with
          totalShares := info.totalShares + amount
          totalRewards := info.totalRewards + loan }
        { shares := data.shares + amount, borrowedAmount := data.borrowedAmount + loan } none
  | leftPaid {amount : ℕ} (positive : 0 < amount) (inPool : amount ≤ info.totalShares)
      (held : amount ≤ data.shares) (covers : data.released amount ≤ info.worth amount)
      (backed : info.worth amount - data.released amount ≤ info.totalRewardsUseable)
      (sendable : existentialReward < info.worth amount - data.released amount)
      (within : info.worth amount ≤ info.totalRewards) :
      Booking existentialReward info data (.removeShare amount)
        { info with
          totalShares := info.totalShares - amount
          totalRewards := info.totalRewards - info.worth amount
          totalRewardsUseable :=
            info.totalRewardsUseable - (info.worth amount - data.released amount) }
        { shares := data.shares - amount
          borrowedAmount := data.borrowedAmount - data.released amount }
        (some (info.worth amount - data.released amount))
  | leftUnpaid {amount : ℕ} (positive : 0 < amount) (inPool : amount ≤ info.totalShares)
      (held : amount ≤ data.shares) (covers : data.released amount ≤ info.worth amount)
      (backed : info.worth amount - data.released amount ≤ info.totalRewardsUseable)
      (small : info.worth amount - data.released amount ≤ existentialReward) :
      Booking existentialReward info data (.removeShare amount)
        { info with totalShares := info.totalShares - amount }
        { shares := data.shares - amount
          borrowedAmount := data.borrowedAmount - data.released amount }
        (some 0)
  | claimed (holds : data.shares ≠ 0) (covers : data.borrowedAmount ≤ info.worth data.shares)
      (backed : info.worth data.shares - data.borrowedAmount ≤ info.totalRewardsUseable)
      (sendable : existentialReward ≤ info.worth data.shares - data.borrowedAmount) :
      Booking existentialReward info data .claimRewards
        { info with
          totalRewardsUseable :=
            info.totalRewardsUseable - (info.worth data.shares - data.borrowedAmount) }
        { data with borrowedAmount := info.worth data.shares }
        (some (info.worth data.shares - data.borrowedAmount))
  | kept : Booking existentialReward info data .claimRewards info data none

/-! ## What the calculations give -/

theorem calcRewardByShares_eq_ok {info : PoolInfo} {amount reward : ℕ}
    (computed : calcRewardByShares info amount = .ok reward) :
    reward = info.worth amount ∧ reward ≤ info.totalRewards := by
  unfold calcRewardByShares at computed
  split_ifs at computed with nothing beyond
  · obtain rfl := Except.ok.inj computed
    rcases nothing with none | none <;> simp [PoolInfo.worth, none]
  · simp only [bind_eq_ok, okOr_eq_ok, ensure_eq_ok, pure_eq_ok] at computed
    obtain ⟨worth, found, _, within, rfl⟩ := computed
    exact ⟨(proRata_of_eq_some found).symm, within⟩

theorem sharePrice_eq_ok {info : PoolInfo} {price : FixedU128}
    (computed : sharePrice info = .ok price) :
    price.inner = info.totalRewards * accuracy / info.totalShares := by
  unfold sharePrice at computed
  split_ifs at computed with none
  · obtain rfl := Except.ok.inj computed
    simp [none, FixedU128.zero]
  · exact (checkedFromRational_eq_some.mp (okOr_eq_ok.mp computed)).2.symm

theorem payOut_eq_ok {existentialReward worth reward : ℕ} {info : PoolInfo}
    {sent rewards useable : ℕ}
    (computed : payOut existentialReward info worth reward = .ok (sent, rewards, useable)) :
    (reward ≤ existentialReward ∧ sent = 0 ∧ rewards = info.totalRewards ∧
      useable = info.totalRewardsUseable) ∨
    (existentialReward < reward ∧ sent = reward ∧ worth ≤ info.totalRewards ∧
      rewards = info.totalRewards - worth ∧ useable = info.totalRewardsUseable - reward) := by
  unfold payOut at computed
  split_ifs at computed with small
  · obtain ⟨rfl, rfl, rfl⟩ := by simpa using computed
    exact .inl ⟨small, rfl, rfl, rfl⟩
  · simp only [bind_eq_ok, okOr_eq_ok, checkedSub_eq_some, pure_eq_ok, Prod.mk.injEq] at computed
    obtain ⟨_, ⟨within, rfl⟩, _, ⟨_, rfl⟩, rfl, rfl, rfl⟩ := computed
    exact .inr ⟨by omega, rfl, within, rfl, rfl⟩

/-- A removal that is calculated is booked as paid or as too small to pay. -/
theorem getRewardsByAccountShares_booking {existentialReward amount sent : ℕ}
    {info after : PoolInfo} {data left : PoolAccountInfo}
    (computed : getRewardsByAccountShares existentialReward info data amount =
      .ok (after, left, sent)) :
    Booking existentialReward info data (.removeShare amount) after left (some sent) := by
  simp only [getRewardsByAccountShares, bind_eq_ok, okOr_eq_ok, ensure_eq_ok, pure_eq_ok,
    checkedSub_eq_some, Prod.mk.injEq] at computed
  obtain ⟨_, ⟨positive, inPool, held⟩, worth, valued, _, found, _, ⟨_, rfl⟩, _, ⟨covers, rfl⟩, _,
    ⟨backed, _⟩, _, ⟨_, rfl⟩, ⟨_, _, _⟩, paid, _, ⟨_, rfl⟩, rfl, rfl, rfl⟩ := computed
  obtain ⟨rfl, within⟩ := calcRewardByShares_eq_ok valued
  obtain rfl : data.released amount = _ := proRata_of_eq_some found
  rcases payOut_eq_ok paid with ⟨small, rfl, rfl, rfl⟩ | ⟨sendable, rfl, _, rfl, rfl⟩
  · exact .leftUnpaid positive inPool held covers backed small
  · exact .leftPaid positive inPool held covers backed sendable within

section storage

variable [DecidableEq PoolId] [DecidableEq Account]

/-! ## Granting rewards -/

/-- The reward that the pool has not been granted yet. -/
def dueReward (state : State config) (pool : PoolId) : ℕ :=
  if state.blockNumber ≤ (state.pools pool).lastUpdateBlock then 0
  else config.caculateReward state.store pool (state.pools pool).totalShares
    (state.pools pool).lastUpdateBlock state.blockNumber

/-- The pool with all the rewards up to the current block. -/
def accrued (state : State config) (pool : PoolId) : PoolInfo :=
  { state.pools pool with
    totalRewards := (state.pools pool).totalRewards + dueReward state pool
    totalRewardsUseable := (state.pools pool).totalRewardsUseable + dueReward state pool
    lastUpdateBlock := max (state.pools pool).lastUpdateBlock state.blockNumber }

/-- The rewards that are due can be booked. -/
def DueFits (state : State config) (pool : PoolId) : Prop :=
  dueReward state pool ≠ 0 →
    (accrued state pool).totalRewards < 2 ^ 128 ∧ (accrued state pool).totalRewardsUseable < 2 ^ 128

omit [DecidableEq PoolId] [DecidableEq Account] in
/-- The rewards of a pool are calculated exactly when they can be booked. -/
theorem calcPoolReward_eq_ok {state : State config} {pool : PoolId} {info : PoolInfo}
    {change : ℕ} : calcPoolReward state pool = .ok (info, change) ↔
      DueFits state pool ∧ info = accrued state pool ∧ change = dueReward state pool := by
  unfold calcPoolReward calcPoolRewardAtBlock DueFits accrued dueReward
  dsimp only
  split_ifs with updated nothing
  · simp [max_eq_left updated, eq_comm]
  · simp [nothing, max_eq_right (Nat.le_of_not_le updated), eq_comm]
  · rw [max_eq_right (Nat.le_of_not_le updated)]
    simp only [bind_eq_ok, okOr_eq_ok, checkedAdd_eq_some, pure_eq_ok, Prod.mk.injEq]
    constructor
    · rintro ⟨_, ⟨total, rfl⟩, _, ⟨useable, rfl⟩, rfl, rfl⟩
      exact ⟨fun _ => ⟨total, useable⟩, rfl, rfl⟩
    · rintro ⟨fits, rfl, rfl⟩
      exact ⟨_, ⟨(fits nothing).1, rfl⟩, _, ⟨(fits nothing).2, rfl⟩, rfl, rfl⟩

/-- A state and the one after the pool was granted its rewards. -/
structure Granted (state : State config) (pool : PoolId) (middle : State config) : Prop where
  pools : middle.pools = Function.update state.pools pool (accrued state pool)
  accounts : middle.poolAccountData = state.poolAccountData
  block : middle.blockNumber = state.blockNumber
  fits : dueReward state pool ≠ 0 → (accrued state pool).totalRewards < 2 ^ 128
  /-- The account of the pool was credited, as far as a signed amount goes. -/
  credited : dueReward state pool = 0 ∧ middle.store = state.store ∨
    config.ledger.updateBalance state.store (config.subAccountId pool)
      (min (dueReward state pool) maxAmount : ℕ) = some middle.store

omit [DecidableEq Account] in
theorem Granted.here {state middle : State config} {pool : PoolId}
    (grant : Granted state pool middle) : middle.pools pool = accrued state pool := by
  rw [grant.pools, Function.update_self]

omit [DecidableEq PoolId] [DecidableEq Account] in
/-- A credit goes through when there is nothing to credit or the currency accepts it. -/
theorem creditSubAccount_eq_ok {state after : State config} {pool : PoolId} {change : ℕ} :
    (creditSubAccount pool change).run state = .ok () after ↔
      change = 0 ∧ after = state ∨ change ≠ 0 ∧ ∃ store,
        config.ledger.updateBalance state.store (config.subAccountId pool)
          (min change maxAmount : ℕ) = some store ∧ after = { state with store } := by
  unfold creditSubAccount
  split_ifs with nothing
  · simp [nothing, eq_comm]
  · simp only [Action.run_bind_ok, Action.run_get_ok, Action.run_modify_ok,
      Action.run_ofExcept_ok, okOr_eq_ok]
    constructor
    · rintro ⟨_, _, ⟨rfl, rfl⟩, store, _, ⟨accepted, rfl⟩, rfl⟩
      exact .inr ⟨nothing, store, accepted, rfl⟩
    · rintro (⟨none, -⟩ | ⟨-, store, accepted, rfl⟩)
      · exact absurd none nothing
      · exact ⟨_, _, ⟨rfl, rfl⟩, store, _, ⟨accepted, rfl⟩, rfl⟩

omit [DecidableEq Account] in
/-- A grant goes through when the rewards can be booked and their credit goes through. -/
theorem updatePoolReward_eq_ok {state middle : State config} {pool : PoolId} {info : PoolInfo} :
    (updatePoolReward pool).run state = .ok info middle ↔
      DueFits state pool ∧ info = accrued state pool ∧ ∃ credited,
        (creditSubAccount pool (dueReward state pool)).run state = .ok () credited ∧
          middle = credited.setPool pool (accrued state pool) := by
  simp only [updatePoolReward, Action.run_bind_ok, Action.run_get_ok, Action.run_modify_ok,
    Action.run_pure_ok, Action.run_ofExcept_ok]
  constructor
  · rintro ⟨_, _, ⟨rfl, rfl⟩, ⟨_, _⟩, _, ⟨computed, rfl⟩, _, credited, paid, _, _, rfl, rfl, rfl⟩
    obtain ⟨fits, rfl, rfl⟩ := calcPoolReward_eq_ok.mp computed
    exact ⟨fits, rfl, credited, paid, rfl⟩
  · rintro ⟨fits, rfl, credited, paid, rfl⟩
    have computed := calcPoolReward_eq_ok.mpr ⟨fits, rfl, rfl⟩
    exact ⟨_, _, ⟨rfl, rfl⟩, _, _, ⟨computed, rfl⟩, (), credited, paid, (), _, rfl, rfl, rfl⟩

omit [DecidableEq Account] in
theorem updatePoolReward_granted {state middle : State config} {pool : PoolId} {info : PoolInfo}
    (success : (updatePoolReward pool).run state = .ok info middle) :
    info = accrued state pool ∧ Granted state pool middle := by
  obtain ⟨dueFits, rfl, credited, paid, rfl⟩ := updatePoolReward_eq_ok.mp success
  have fits := fun granted => (dueFits granted).1
  refine ⟨rfl, ?_⟩
  rcases creditSubAccount_eq_ok.mp paid with ⟨nothing, rfl⟩ | ⟨-, store, accepted, rfl⟩
  · exact ⟨rfl, rfl, rfl, fits, .inl ⟨nothing, rfl⟩⟩
  · exact ⟨rfl, rfl, rfl, fits, .inr accepted⟩

/-! ## Booking a call -/

/-- The storage after a payment from the account of a pool, if there was one. -/
def Pays (config : Config Account PoolId) (pool : PoolId) (who : Account)
    (before after : config.ledger.Store) : Option ℕ → Prop
  | none => after = before
  | some amount =>
    config.ledger.transfer before (config.subAccountId pool) who amount = some after

/-- A state and the one after a call was booked, given that the rewards were granted. -/
structure Booked (middle : State config) (who : Account) (pool : PoolId) (call : Call)
    (info : PoolInfo) (data : PoolAccountInfo) (sent : Option ℕ) (next : State config) : Prop where
  booking : Booking config.existentialReward (middle.pools pool)
    (middle.poolAccountData pool who) call info data sent
  pools : next.pools = Function.update middle.pools pool info
  accounts : next.poolAccountData = Function.update middle.poolAccountData pool
    (Function.update (middle.poolAccountData pool) who data)
  block : next.blockNumber = middle.blockNumber
  pays : Pays config pool who middle.store next.store sent

omit [DecidableEq PoolId] [DecidableEq Account] in
theorem transfer_ok {before after : State config} {pool : PoolId} {who : Account} {amount : ℕ}
    {done : Unit} (success : (transfer pool who amount).run before = .ok done after) :
    ∃ store, config.ledger.transfer before.store (config.subAccountId pool) who amount =
      some store ∧ after = { before with store } := by
  simp only [transfer, Action.run_bind_ok, Action.run_get_ok, Action.run_modify_ok,
    Action.run_ofExcept_ok, okOr_eq_ok] at success
  obtain ⟨_, _, ⟨rfl, rfl⟩, store, _, ⟨paid, rfl⟩, rfl⟩ := success
  exact ⟨store, paid, rfl⟩

theorem addShare_booked {state next : State config} {who : Account} {pool : PoolId}
    {amount shares : ℕ} (success : (addShare who pool amount).run state = .ok shares next) :
    ∃ middle info data sent, Granted state pool middle ∧
      Booked middle who pool (.addShare amount) info data sent next := by
  simp only [addShare, Action.run_bind_ok, Action.run_get_ok, Action.run_modify_ok,
    Action.run_pure_ok, Action.run_ofExcept_ok, ensure_eq_ok, okOr_eq_ok, checkedAdd_eq_some,
    checkedMulInt_eq_some] at success
  obtain ⟨_, _, ⟨positive, rfl⟩, _, middle, update, price, _, ⟨priced, rfl⟩, loan, _,
    ⟨⟨_, lent⟩, rfl⟩, _, _, ⟨⟨sharesFit, rfl⟩, rfl⟩, _, _, ⟨⟨rewardsFit, rfl⟩, rfl⟩, _, _, rfl,
    _, _, ⟨rfl, rfl⟩, _, _, ⟨⟨_, rfl⟩, rfl⟩, _, _, ⟨⟨_, rfl⟩, rfl⟩, _, _, rfl, _, rfl⟩ := success
  obtain ⟨rfl, grant⟩ := updatePoolReward_granted update
  rw [sharePrice_eq_ok priced] at lent
  refine ⟨middle, _, _, none, grant, ?_, rfl, rfl, rfl, rfl⟩
  rw [grant.here]
  exact .entered positive lent.symm sharesFit rewardsFit

theorem removeShare_booked {state next : State config} {who : Account} {pool : PoolId}
    {amount shares : ℕ} (success : (removeShare who pool amount).run state = .ok shares next) :
    ∃ middle info data sent, Granted state pool middle ∧
      Booked middle who pool (.removeShare amount) info data sent next := by
  simp only [removeShare, Action.run_bind_ok, Action.run_get_ok, Action.run_modify_ok,
    Action.run_pure_ok, Action.run_ofExcept_ok, ensure_eq_ok] at success
  obtain ⟨_, middle, update, _, _, ⟨rfl, rfl⟩, _, _, ⟨_, rfl⟩, ⟨info, data, reward⟩, _,
    ⟨computed, rfl⟩, _, _, rfl, _, _, rfl, _, _, sending, _, rfl⟩ := success
  obtain ⟨rfl, grant⟩ := updatePoolReward_granted update
  obtain ⟨store, paid, rfl⟩ := transfer_ok sending
  refine ⟨middle, info, data, some reward, grant, ?_, rfl, rfl, rfl, paid⟩
  rw [grant.here]
  exact getRewardsByAccountShares_booking computed

theorem claimRewards_booked {state next : State config} {who : Account} {pool : PoolId}
    {reward : ℕ} (success : (claimRewards who pool).run state = .ok reward next) :
    ∃ middle info data sent, Granted state pool middle ∧
      Booked middle who pool .claimRewards info data sent next := by
  simp only [claimRewards, Action.run_bind_ok, Action.run_get_ok] at success
  obtain ⟨_, middle, update, _, _, ⟨rfl, rfl⟩, rest⟩ := success
  obtain ⟨rfl, grant⟩ := updatePoolReward_granted update
  have idle : Booked middle who pool .claimRewards (middle.pools pool)
      (middle.poolAccountData pool who) none middle :=
    ⟨.kept, (Function.update_eq_self _ _).symm, by simp, rfl, rfl⟩
  split_ifs at rest with nothing
  · obtain ⟨_, rfl⟩ := Action.run_pure_ok.mp rest
    exact ⟨_, _, _, _, grant, idle⟩
  · simp only [Action.run_bind_ok, Action.run_ofExcept_ok, okOr_eq_ok, checkedSub_eq_some] at rest
    obtain ⟨_, _, ⟨valued, rfl⟩, _, _, ⟨⟨covers, rfl⟩, rfl⟩, rest⟩ := rest
    obtain ⟨rfl, _⟩ := calcRewardByShares_eq_ok valued
    split_ifs at rest with small
    · obtain ⟨_, rfl⟩ := Action.run_pure_ok.mp rest
      exact ⟨_, _, _, _, grant, idle⟩
    · simp only [Action.run_bind_ok, Action.run_modify_ok, Action.run_pure_ok,
        Action.run_ofExcept_ok, okOr_eq_ok, checkedSub_eq_some, ensure_eq_ok] at rest
      obtain ⟨_, _, ⟨⟨backed, rfl⟩, rfl⟩, _, _, ⟨_, rfl⟩, _, _, sending, _, _, rfl, _, _, rfl, _,
        rfl⟩ := rest
      obtain ⟨store, paid, rfl⟩ := transfer_ok sending
      refine ⟨middle, _, _, some _, grant, ?_, rfl, rfl, rfl, paid⟩
      simp only [grant.here]
      exact .claimed nothing covers backed (Nat.le_of_not_lt small)

/-! ## The steps of the machine -/

/-- What a step of the machine does. -/
inductive Moved (state : State config) : Label config → State config → Prop
  | booked {middle next : State config} {who : Account} {pool : PoolId} {call : Call}
      {info : PoolInfo} {data : PoolAccountInfo} {sent : Option ℕ}
      (grant : Granted state pool middle)
      (booked : Booked middle who pool call info data sent next) :
      Moved state (.call who pool call) next
  | granted {next : State config} {pool : PoolId} (grant : Granted state pool next) :
      Moved state (.updatePoolReward pool) next
  | nextBlock : Moved state .nextBlock { state with blockNumber := state.blockNumber + 1 }
  | elsewhere {store : config.ledger.Store} : Moved state (.elsewhere store) { state with store }

theorem dispatch_booked {state next : State config} {who : Account} {pool : PoolId} {call : Call}
    {result : ℕ} (success : (dispatch who pool call).run state = .ok result next) :
    ∃ middle info data sent, Granted state pool middle ∧
      Booked middle who pool call info data sent next := by
  cases call with
  | addShare amount => exact addShare_booked success
  | removeShare amount => exact removeShare_booked success
  | claimRewards => exact claimRewards_booked success

theorem step_moved {state next : State config} {label : Label config} {out : List (Label config)}
    (taken : (pallet config).step state label = .ok (next, out)) :
    Moved state label next ∧ out = [label] := by
  simp only [pallet, bind_eq_ok, pure_eq_ok, Prod.mk.injEq] at taken
  obtain ⟨_, moved, rfl, rfl⟩ := taken
  refine ⟨?_, rfl⟩
  cases label with
  | call who pool call =>
    obtain ⟨_, success⟩ := Action.committed_eq_ok.mp moved
    obtain ⟨_, _, _, _, grant, booked⟩ := dispatch_booked success
    exact .booked grant booked
  | updatePoolReward pool =>
    obtain ⟨_, success⟩ := Action.committed_eq_ok.mp moved
    exact .granted (updatePoolReward_granted success).2
  | nextBlock =>
    obtain rfl := Except.ok.inj moved
    exact .nextBlock
  | elsewhere store =>
    obtain rfl := Except.ok.inj moved
    exact .elsewhere

end storage

end GlitchRuntime.RewardPool

import GlitchRuntime.Lib.Runs
import GlitchRuntime.Lib.Storage
import GlitchRuntime.Lib.FixedPoint
import GlitchRuntime.Lib.Ledger

/-! # The reward pool

Accounts hold shares of a pool, and the rewards of a pool belong to its shares. An account that
adds shares borrows what those shares are already worth, so the worth of a share stays. What it
borrowed is virtual: it counts as a reward of the pool but cannot be withdrawn.
-/

namespace GlitchRuntime.RewardPool

open Lib FixedU128

/-- The reward pool info. -/
structure PoolInfo where
  totalShares : ℕ := 0
  /-- Including the virtual amounts that were added with shares. -/
  totalRewards : ℕ := 0
  /-- The rewards that can be withdrawn. -/
  totalRewardsUseable : ℕ := 0
  /-- The block that last granted rewards. -/
  lastUpdateBlock : ℕ := 0
deriving DecidableEq

/-- The shares of an account and the virtual amount that it borrowed. -/
structure PoolAccountInfo where
  shares : ℕ := 0
  borrowedAmount : ℕ := 0
deriving DecidableEq

/-- The errors of the module, and that of the currency. -/
inductive Error
  | rewardCaculationError
  | insufficientShares
  | invalidAmount
  | currency
deriving DecidableEq

/-- What the runtime gives the module. -/
structure Config (Account PoolId : Type) where
  /-- The native currency, over the storage of the rest of the chain. -/
  ledger : LedgerOps Account
  subAccountId : PoolId → Account
  /-- The reward of a pool with so many shares from one block to another. -/
  caculateReward : ledger.Store → PoolId → ℕ → ℕ → ℕ → ℕ
  /-- The minimum reward that could be sent to an account. -/
  existentialReward : ℕ

variable {Account PoolId : Type}

/-- The storage: the maps of the module, the rest of the chain and the current block. -/
structure State (config : Config Account PoolId) where
  pools : PoolId → PoolInfo
  poolAccountData : PoolId → Account → PoolAccountInfo
  store : config.ledger.Store
  blockNumber : ℕ

/-! ## Shares and rewards -/

/-- What so many shares are worth, virtual amounts included. -/
def calcRewardByShares (poolInfo : PoolInfo) (amount : ℕ) : Except Error ℕ :=
  if poolInfo.totalShares = 0 ∨ amount = 0 then .ok 0
  else if poolInfo.totalShares < amount then .error .insufficientShares
  else do
    let rewardWithVirtual ← okOr ((checkedFromRational amount poolInfo.totalShares).bind
      fun ratio => ratio.checkedMulInt poolInfo.totalRewards) .rewardCaculationError
    ensure (rewardWithVirtual ≤ poolInfo.totalRewards) .rewardCaculationError
    pure rewardWithVirtual

/-- What is sent and what the pool keeps: a reward too small to send stays in the pool. -/
def payOut (existentialReward : ℕ) (poolInfo : PoolInfo) (rewardWithVirtual reward : ℕ) :
    Except Error (ℕ × ℕ × ℕ) :=
  if reward ≤ existentialReward then
    .ok (0, poolInfo.totalRewards, poolInfo.totalRewardsUseable)
  else do
    let rewards ← okOr (checkedSub poolInfo.totalRewards rewardWithVirtual) .rewardCaculationError
    let rewardsUseable ← okOr (checkedSub poolInfo.totalRewardsUseable reward)
      .rewardCaculationError
    pure (reward, rewards, rewardsUseable)

/-- The pool and the account after a removal of shares, and the reward to send. -/
def getRewardsByAccountShares (existentialReward : ℕ) (poolInfo : PoolInfo)
    (accountInfo : PoolAccountInfo) (amount : ℕ) :
    Except Error (PoolInfo × PoolAccountInfo × ℕ) := do
  ensure (0 < amount ∧ amount ≤ poolInfo.totalShares ∧ amount ≤ accountInfo.shares)
    .insufficientShares
  let rewardWithVirtual ← calcRewardByShares poolInfo amount
  let accountBalanceToRemove ← okOr ((checkedFromRational amount accountInfo.shares).bind
    fun ratio => ratio.checkedMulInt accountInfo.borrowedAmount) .rewardCaculationError
  let newBalance ← okOr (checkedSub accountInfo.borrowedAmount accountBalanceToRemove)
    .rewardCaculationError
  let reward ← okOr (checkedSub rewardWithVirtual accountBalanceToRemove) .rewardCaculationError
  ensure (reward ≤ poolInfo.totalRewardsUseable ∧ newBalance ≤ accountInfo.borrowedAmount)
    .rewardCaculationError
  let totalShares ← okOr (checkedSub poolInfo.totalShares amount) .insufficientShares
  let (sent, totalRewards, totalRewardsUseable) ←
    payOut existentialReward poolInfo rewardWithVirtual reward
  let shares ← okOr (checkedSub accountInfo.shares amount) .rewardCaculationError
  pure ({ poolInfo with totalShares, totalRewards, totalRewardsUseable },
    { shares, borrowedAmount := newBalance }, sent)

/-- The rewards per share; a pool without shares has none. -/
def sharePrice (poolInfo : PoolInfo) : Except Error FixedU128 :=
  if poolInfo.totalShares = 0 then .ok .zero
  else okOr (checkedFromRational poolInfo.totalRewards poolInfo.totalShares) .rewardCaculationError

section storage

variable {config : Config Account PoolId} [DecidableEq PoolId] [DecidableEq Account]

/-- The pool with the rewards up to a block, and how much those were. -/
def calcPoolRewardAtBlock (store : config.ledger.Store) (pool : PoolId) (poolInfo : PoolInfo)
    (curBlock : ℕ) : Except Error (PoolInfo × ℕ) :=
  if curBlock ≤ poolInfo.lastUpdateBlock then .ok (poolInfo, 0)
  else
    let reward := config.caculateReward store pool poolInfo.totalShares poolInfo.lastUpdateBlock
      curBlock
    if reward = 0 then .ok ({ poolInfo with lastUpdateBlock := curBlock }, 0)
    else do
      let totalRewards ← okOr (checkedAdd poolInfo.totalRewards reward) .rewardCaculationError
      let totalRewardsUseable ← okOr (checkedAdd poolInfo.totalRewardsUseable reward)
        .rewardCaculationError
      pure ({ poolInfo with totalRewards, totalRewardsUseable, lastUpdateBlock := curBlock }, reward)

def calcPoolReward (state : State config) (pool : PoolId) : Except Error (PoolInfo × ℕ) :=
  calcPoolRewardAtBlock state.store pool (state.pools pool) state.blockNumber

namespace State

def setPool (state : State config) (pool : PoolId) (info : PoolInfo) : State config :=
  { state with pools := Function.update state.pools pool info }

def setAccount (state : State config) (pool : PoolId) (who : Account) (data : PoolAccountInfo) :
    State config :=
  { state with
    poolAccountData := Function.update state.poolAccountData pool
      (Function.update (state.poolAccountData pool) who data) }

end State

/-- The largest amount that a signed number of 128 bits holds. -/
def maxAmount : ℕ := 2 ^ 127 - 1

/-- Credit the account of a pool; an amount that has a sign saturates. -/
def creditSubAccount (pool : PoolId) (balanceChange : ℕ) : Action Error (State config) Unit := do
  if balanceChange = 0 then pure ()
  else
    let state ← get
    let store ← .ofExcept (okOr (config.ledger.updateBalance state.store
      (config.subAccountId pool) (min balanceChange maxAmount : ℕ)) .currency)
    modify fun state => { state with store }

/-- Pay from the account of a pool. -/
def transfer (pool : PoolId) (who : Account) (amount : ℕ) : Action Error (State config) Unit := do
  let state ← get
  let store ← .ofExcept (okOr (config.ledger.transfer state.store (config.subAccountId pool) who
    amount) .currency)
  modify fun state => { state with store }

/-- Grant the pool its rewards up to the current block. -/
def updatePoolReward (pool : PoolId) : Action Error (State config) PoolInfo := do
  let state ← get
  let (poolInfo, balanceChange) ← .ofExcept (calcPoolReward state pool)
  creditSubAccount pool balanceChange
  modify fun state => state.setPool pool poolInfo
  pure poolInfo

/-! ## The calls -/

/-- Add shares: the account borrows what balances the price of a share. -/
def addShare (who : Account) (pool : PoolId) (amount : ℕ) : Action Error (State config) ℕ := do
  .ofExcept (ensure (0 < amount) .invalidAmount)
  let poolInfo ← updatePoolReward pool
  let price ← .ofExcept (sharePrice poolInfo)
  let virtualRewardAmount ← .ofExcept (okOr (price.checkedMulInt amount) .rewardCaculationError)
  let totalShares ← .ofExcept
    (okOr (checkedAdd poolInfo.totalShares amount) .rewardCaculationError)
  let totalRewards ← .ofExcept
    (okOr (checkedAdd poolInfo.totalRewards virtualRewardAmount) .rewardCaculationError)
  modify fun state => state.setPool pool { poolInfo with totalShares, totalRewards }
  let state ← get
  let shares ← .ofExcept
    (okOr (checkedAdd (state.poolAccountData pool who).shares amount) .rewardCaculationError)
  let borrowedAmount ← .ofExcept
    (okOr (checkedAdd (state.poolAccountData pool who).borrowedAmount virtualRewardAmount)
      .rewardCaculationError)
  modify fun state => state.setAccount pool who { shares, borrowedAmount }
  pure shares

/-- Remove shares, with the reward on them and the part of the loan on them. -/
def removeShare (who : Account) (pool : PoolId) (amount : ℕ) :
    Action Error (State config) ℕ := do
  let poolInfo ← updatePoolReward pool
  let state ← get
  .ofExcept (ensure (amount ≤ (state.poolAccountData pool who).shares) .insufficientShares)
  let (poolInfo, accountInfo, reward) ← .ofExcept (getRewardsByAccountShares
    config.existentialReward poolInfo (state.poolAccountData pool who) amount)
  modify fun state => state.setPool pool poolInfo
  modify fun state => state.setAccount pool who accountInfo
  transfer pool who reward
  pure accountInfo.shares

/-- Claim the rewards on all shares; the account then owes all that its shares are worth. -/
def claimRewards (who : Account) (pool : PoolId) : Action Error (State config) ℕ := do
  let poolInfo ← updatePoolReward pool
  let state ← get
  let accountInfo := state.poolAccountData pool who
  if accountInfo.shares = 0 then pure 0
  else
    let rewardWithVirtual ← .ofExcept (calcRewardByShares poolInfo accountInfo.shares)
    let actualReward ← .ofExcept
      (okOr (checkedSub rewardWithVirtual accountInfo.borrowedAmount) .rewardCaculationError)
    if actualReward < config.existentialReward then pure 0
    else
      let totalRewardsUseable ← .ofExcept
        (okOr (checkedSub poolInfo.totalRewardsUseable actualReward) .rewardCaculationError)
      .ofExcept (ensure (accountInfo.borrowedAmount ≤ rewardWithVirtual) .rewardCaculationError)
      transfer pool who actualReward
      modify fun state => state.setPool pool { state.pools pool with totalRewardsUseable }
      modify fun state => state.setAccount pool who
        { state.poolAccountData pool who with borrowedAmount := rewardWithVirtual }
      pure actualReward

/-- What an account could claim now, by the calculation of a removal of all of its shares; nothing
where that fails. It only reads. -/
def getAccumlatedRewards (state : State config) (who : Account) (pool : PoolId) : ℕ :=
  let accountInfo := state.poolAccountData pool who
  if accountInfo.shares = 0 then 0
  else
    let calcReward : Except Error ℕ := do
      let (poolInfo, _) ← calcPoolReward state pool
      let (_, _, reward) ← getRewardsByAccountShares config.existentialReward poolInfo accountInfo
        accountInfo.shares
      pure reward
    match calcReward with
    | .ok reward => reward
    | .error _ => 0

/-! ## The pool as a machine -/

/-- The calls on a pool. -/
inductive Call
  | addShare (amount : ℕ)
  | removeShare (amount : ℕ)
  | claimRewards
deriving DecidableEq

/-- What may happen next: a call, a grant of rewards, a block, or anything elsewhere. -/
inductive Label (config : Config Account PoolId)
  | call (who : Account) (pool : PoolId) (call : Call)
  | updatePoolReward (pool : PoolId)
  | nextBlock
  | elsewhere (store : config.ledger.Store)

def dispatch (who : Account) (pool : PoolId) : Call → Action Error (State config) ℕ
  | .addShare amount => addShare who pool amount
  | .removeShare amount => removeShare who pool amount
  | .claimRewards => claimRewards who pool

/-- The storage after a label, every call in a storage transaction. -/
def advance (state : State config) : Label config → Except Error (State config)
  | .call who pool call => (dispatch who pool call).committed state
  | .updatePoolReward pool => (updatePoolReward pool).committed state
  | .nextBlock => .ok { state with blockNumber := state.blockNumber + 1 }
  | .elsewhere store => .ok { state with store }

/-- The machine, which leaves every label that was taken. -/
def pallet (config : Config Account PoolId) :
    Machine (State config) (Label config) Error (Label config) where
  step state label := do
    let after ← advance state label
    pure (after, [label])

/-- No shares anywhere; the rest of the chain is arbitrary. -/
def genesis (store : config.ledger.Store) (blockNumber : ℕ) : State config where
  pools _ := {}
  poolAccountData _ _ := {}
  store := store
  blockNumber := blockNumber

end storage

end GlitchRuntime.RewardPool

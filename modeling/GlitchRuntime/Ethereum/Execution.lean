import GlitchRuntime.Ethereum.Validation

/-! # Execution of Ethereum transactions

A validated transaction is handed to the interpreter's runner with its fee split into a base and a
priority part, and its receipt joins those pending for the block. An error of the runner would
invalidate the block, so validation must imply everything the runner checks.
-/

namespace GlitchRuntime.Ethereum

open Lib Lib.Word

/-- The filter of logs in a receipt. -/
abbrev Bloom := BitVec 2048

structure Log where
  address : H160
  topics : List H256
  data : List UInt8
deriving DecidableEq

/-- How an execution ended. -/
inductive ExitReason
  | succeed
  | error
  | revert
  | fatal
deriving DecidableEq

structure CallInfo where
  exitReason : ExitReason
  usedGas : U256
  logs : List Log
deriving DecidableEq

structure CreateInfo where
  exitReason : ExitReason
  value : H160
  usedGas : U256
  logs : List Log
deriving DecidableEq

inductive CallOrCreateInfo
  | call (info : CallInfo)
  | create (info : CreateInfo)
deriving DecidableEq

/-- The refusals of the runner. -/
inductive RunnerError
  | balanceLow
  | feeOverflow
  | paymentOverflow
  | withdrawFailed
  | gasPriceTooLow
  | invalidNonce
deriving DecidableEq

inductive DispatchError
  | other (message : String)
  | runner (error : RunnerError)
deriving DecidableEq

/-- What the runner is given besides the address it calls. -/
structure RunnerInput where
  source : H160
  input : List UInt8
  value : U256
  gasLimit : U64
  maxFeePerGas : Option U256
  maxPriorityFeePerGas : Option U256
  nonce : Option U256
  accessList : AccessList
deriving DecidableEq

/-- The interpreter: what a call or a creation does to the chain. -/
structure Runner where
  call : Chain → H160 → RunnerInput → Except RunnerError (CallInfo × Chain)
  create : Chain → RunnerInput → Except RunnerError (CreateInfo × Chain)

/-- The fee a chain without code withdraws from the source, with the runner's checks before it. -/
def chargeSource (chain : Chain) (args : RunnerInput) (usedGas : ℕ) : Except RunnerError Chain := do
  let maxFee ← okOr args.maxFeePerGas .gasPriceTooLow
  let rate := maxFee.toNat + (args.maxPriorityFeePerGas.getD 0).toNat
  let account := chain.accountBasic args.source
  ensure (minGasPrice ≤ maxFee) RunnerError.gasPriceTooLow
  ensure (rate * args.gasLimit.toNat < 2 ^ 256) RunnerError.feeOverflow
  ensure (rate * args.gasLimit.toNat + args.value.toNat < 2 ^ 256) RunnerError.paymentOverflow
  ensure (rate * args.gasLimit.toNat + args.value.toNat ≤ account.balance.toNat)
    RunnerError.balanceLow
  ensure (args.nonce.all (· = account.nonce)) RunnerError.invalidNonce
  return { chain with
    accountBasic := Function.update chain.accountBasic args.source {
      nonce := account.nonce + 1
      balance := account.balance - BitVec.ofNat 256 (rate * usedGas) - args.value } }

/-- The value of a transaction, once its source has been charged. -/
def creditTarget (chain : Chain) (target : H160) (value : U256) : Chain :=
  let account := chain.accountBasic target
  { chain with
    accountBasic := Function.update chain.accountBasic target {
      nonce := account.nonce, balance := account.balance + value } }

/-- A runner for accounts without code, standing in for the interpreter's: it charges the bytes of
the transaction and moves its value. -/
def codelessRunner (createAddress : H160 → U256 → H160) : Runner where
  call chain target args := do
    let usedGas := cloverEvmConfig.gasometer.callTransactionCost args.input args.accessList
    let charged ← chargeSource chain args usedGas
    let info : CallInfo := {
      exitReason := .succeed
      usedGas := BitVec.ofNat 256 usedGas
      logs := [] }
    return (info, creditTarget charged target args.value)
  create chain args := do
    let usedGas := cloverEvmConfig.gasometer.createTransactionCost args.input args.accessList
    let target := createAddress args.source (chain.accountBasic args.source).nonce
    let charged ← chargeSource chain args usedGas
    let info : CreateInfo := {
      exitReason := .succeed
      value := target
      usedGas := BitVec.ofNat 256 usedGas
      logs := [] }
    return (info, creditTarget charged target args.value)

/-- The hash of a transaction, and how a filter takes in an address or a topic. -/
structure Digests where
  hash : Transaction → H256
  accrueAddress : Bloom → H160 → Bloom
  accrueTopic : Bloom → H256 → Bloom

structure TransactionStatus where
  transactionHash : H256
  transactionIndex : UInt32
  source : H160
  target : Option H160
  contractAddress : Option H160
  logs : List Log
  logsBloom : Bloom
deriving DecidableEq

structure ReceiptData where
  statusCode : UInt8
  usedGas : U256
  logsBloom : Bloom
  logs : List Log
deriving DecidableEq

inductive Receipt
  | legacy (data : ReceiptData)
  | eip2930 (data : ReceiptData)
  | eip1559 (data : ReceiptData)
deriving DecidableEq

def Receipt.data : Receipt → ReceiptData
  | legacy data => data
  | eip2930 data => data
  | eip1559 data => data

/-- `Event::Executed`. -/
structure Executed where
  source : H160
  target : H160
  transactionHash : H256
  exitReason : ExitReason
deriving DecidableEq

/-- A block under construction. -/
structure BlockState where
  chain : Chain
  pending : List (Transaction × TransactionStatus × Receipt)
  events : List Executed

/-- The weight a dispatch is charged; Ethereum transactions pay no substrate fee. -/
structure PostDispatchInfo where
  actualWeight : Option U64
  paysFee : Bool
deriving DecidableEq

/-- The arguments `execute` computes for the runner: below the base fee there are none. -/
def runnerInput (source : H160) : Transaction → Except DispatchError RunnerInput
  | .legacy t => do
    let priorityFee ← okOr (checkedSub t.gasPrice minGasPrice) (.other "Gas price too low")
    return {
      source := source
      input := t.input
      value := t.value
      gasLimit := saturateTo 64 t.gasLimit
      maxFeePerGas := some minGasPrice
      maxPriorityFeePerGas := some priorityFee
      nonce := some t.nonce
      accessList := [] }
  | .eip2930 t => do
    let priorityFee ← okOr (checkedSub t.gasPrice minGasPrice) (.other "Gas price too low")
    return {
      source := source
      input := t.input
      value := t.value
      gasLimit := saturateTo 64 t.gasLimit
      maxFeePerGas := some minGasPrice
      maxPriorityFeePerGas := some priorityFee
      nonce := some t.nonce
      accessList := accessListOf t.accessList }
  | .eip1559 t => .ok {
      source := source
      input := t.input
      value := t.value
      gasLimit := saturateTo 64 t.gasLimit
      maxFeePerGas := some t.maxFeePerGas
      maxPriorityFeePerGas := some t.maxPriorityFeePerGas
      nonce := some t.nonce
      accessList := accessListOf t.accessList }

variable {Cost : Type} (gasometer : Gasometer Cost) (runner : Runner) (digests : Digests)

/-- The called address, the created one, what the runner reports, and the chain it leaves. -/
def execute (chain : Chain) (source : H160) (transaction : Transaction) :
    Except DispatchError ((Option H160 × Option H160 × CallOrCreateInfo) × Chain) := do
  let args ← runnerInput source transaction
  match transaction.action with
  | .call target =>
    let (info, chain) ← (runner.call chain target args).mapError .runner
    return ((some target, none, .call info), chain)
  | .create =>
    let (info, chain) ← (runner.create chain args).mapError .runner
    return ((none, some info.value, .create info), chain)

/-- The filter of some logs. -/
def logsBloom (logs : List Log) (bloom : Bloom) : Bloom :=
  logs.foldl (fun bloom log =>
    log.topics.foldl digests.accrueTopic (digests.accrueAddress bloom log.address)) bloom

/-- The gas used in the block up to a transaction. -/
def cumulativeGasUsed (pending : List (Transaction × TransactionStatus × Receipt))
    (usedGas : U256) : U256 :=
  match pending.getLast? with
  | some (_, _, receipt) => saturatingAdd receipt.data.usedGas usedGas
  | none => usedGas

/-- The receipt in the format of its transaction. -/
def receiptOf (transaction : Transaction) (data : ReceiptData) : Receipt :=
  match transaction with
  | .legacy _ => .legacy data
  | .eip2930 _ => .eip2930 data
  | .eip1559 _ => .eip1559 data

/-- The block with a validated transaction applied; nothing when its execution is an error, which
is where the pallet panics. -/
def applyValidatedTransaction (state : BlockState) (source : H160) (transaction : Transaction) :
    Option (BlockState × PostDispatchInfo) := do
  let transactionHash := digests.hash transaction
  let transactionIndex := UInt32.ofNat state.pending.length
  let ((target, _, info), chain) ← (execute runner state.chain source transaction).toOption
  let (reason, logs, usedGas, created, dest) :=
    match info with
    | .call info => (info.exitReason, info.logs, info.usedGas, none, target)
    | .create info => (info.exitReason, info.logs, info.usedGas, some info.value, some info.value)
  let status : TransactionStatus := {
    transactionHash := transactionHash
    transactionIndex := transactionIndex
    source := source
    target := target
    contractAddress := created
    logs := logs
    logsBloom := logsBloom digests logs 0 }
  let receipt := receiptOf transaction {
    statusCode := if reason = .succeed then 1 else 0
    usedGas := cumulativeGasUsed state.pending usedGas
    logsBloom := status.logsBloom
    logs := status.logs }
  some (
    { chain := chain
      pending := state.pending ++ [(transaction, status, receipt)]
      events := state.events ++ [{
        source := source
        target := dest.getD default
        transactionHash := transactionHash
        exitReason := reason }] },
    { actualWeight := some (gasToWeight (saturateTo 64 usedGas)), paysFee := false })

/-- The transactions of an imported block in order; nothing when one of them is refused or fails,
which is where the pallet panics. -/
def importTransactions (state : BlockState) : List (H160 × Transaction) → Option BlockState
  | [] => some state
  | (source, transaction) :: rest => do
    let _ ← (validateTransactionInBlock gasometer state.chain source transaction).toOption
    let (state, _) ← applyValidatedTransaction runner digests state source transaction
    importTransactions state rest

end GlitchRuntime.Ethereum

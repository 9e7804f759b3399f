import GlitchRuntime.Ethereum.Transaction
import GlitchRuntime.Lib.Fallible

/-! # Validation of Ethereum transactions

The checks shared by the pool and the block, and what each of the two adds about the nonce. The
gasometer prices the bytes of a transaction and is the interpreter's own; the chain gives the basic
account of an address and the white list of the revenue program.
-/

namespace GlitchRuntime.Ethereum

open Lib Lib.Word

/-- `GlitchTestnetChainId`. -/
def glitchTestnetChainId : U64 := 2160

/-- `BlockGasLimit`, the largest word of 32 bits. -/
def blockGasLimit : U256 := 4294967295

/-- `FixedGasPrice`. -/
def minGasPrice : U256 := 10000000000

/-- `WEIGHT_PER_SECOND`. -/
def weightPerSecond : U64 := 1000000000000

/-- `GAS_PER_SECOND`. -/
def gasPerSecond : U64 := 32000000

/-- `WEIGHT_PER_GAS`. -/
def weightPerGas : U64 := weightPerSecond / gasPerSecond

/-- `GlitchGasWeightMapping`; a weight is a word of 64 bits already. -/
def gasToWeight (gas : U64) : U64 := saturatingMul gas weightPerGas

/-- The interpreter's gasometer: what a transaction's bytes cost, and whether a limit pays it. -/
structure Gasometer (TransactionCost : Type) where
  callTransactionCost : List UInt8 → AccessList → TransactionCost
  createTransactionCost : List UInt8 → AccessList → TransactionCost
  recordTransaction : U64 → TransactionCost → Bool

/-- What `CloverEvmConfig` charges for the bytes of a transaction. -/
structure EvmConfig where
  gasTransactionCreate : ℕ
  gasTransactionCall : ℕ
  gasTransactionZeroData : ℕ
  gasTransactionNonZeroData : ℕ
  gasAccessListAddress : ℕ
  gasAccessListStorageKey : ℕ

/-- `CloverEvmConfig::config`. -/
def cloverEvmConfig : EvmConfig where
  gasTransactionCreate := 53000
  gasTransactionCall := 21000
  gasTransactionZeroData := 4
  gasTransactionNonZeroData := 16
  gasAccessListAddress := 0
  gasAccessListStorageKey := 0

/-- The price of data and access list under a configuration. -/
def EvmConfig.dataCost (config : EvmConfig) (input : List UInt8) (accessList : AccessList) : ℕ :=
  input.count 0 * config.gasTransactionZeroData +
    (input.length - input.count 0) * config.gasTransactionNonZeroData +
    accessList.length * config.gasAccessListAddress +
    (accessList.map fun item => item.2.length).sum * config.gasAccessListStorageKey

/-- A gasometer that charges by a configuration, standing in for the interpreter's. -/
def EvmConfig.gasometer (config : EvmConfig) : Gasometer ℕ where
  callTransactionCost input accessList :=
    config.gasTransactionCall + config.dataCost input accessList
  createTransactionCost input accessList :=
    config.gasTransactionCreate + config.dataCost input accessList
  recordTransaction limit cost := cost ≤ limit.toNat

/-- The basic account the interpreter sees. -/
structure EvmAccount where
  nonce : U256
  balance : U256
deriving DecidableEq

/-- What validation reads of the chain. -/
structure Chain where
  accountBasic : H160 → EvmAccount
  whitelist : H160 → Option Bool

/-- Every account is rich, fresh and off the white list. -/
def richChain : Chain where
  accountBasic _ := { nonce := 0, balance := 10 ^ 30 }
  whitelist _ := none

/-- `RevenueWhiteList::is_in_white_list`: any stored value counts. -/
def isInWhiteList (chain : Chain) (address : H160) : Bool := (chain.whitelist address).isSome

inductive TransactionValidationError
  | unknownError
  | invalidChainId
  | invalidSignature
  | invalidGasLimit
deriving DecidableEq

/-- The discriminants, as `as u8` reads them. -/
def TransactionValidationError.code : TransactionValidationError → UInt8
  | unknownError => 0
  | invalidChainId => 1
  | invalidSignature => 2
  | invalidGasLimit => 3

inductive InvalidTransaction
  | payment
  | future
  | stale
  | custom (code : UInt8)
deriving DecidableEq

variable {Cost : Type} (gasometer : Gasometer Cost) (chain : Chain)

/-- The cost of a transaction's bytes, by its action. -/
def transactionCost (data : TransactionData) : Cost :=
  match data.action with
  | .call _ => gasometer.callTransactionCost data.input data.accessList
  | .create => gasometer.createTransactionCost data.input data.accessList

/-- The price of the gas with the priority it gives: legacy prices tip what exceeds the base fee. -/
def gasPriceAndPriority (data : TransactionData) : Except InvalidTransaction (U256 × U64) :=
  match data.gasPrice, data.maxFeePerGas with
  | some gasPrice, _ => .ok (gasPrice, saturateTo 64 (saturatingSub gasPrice minGasPrice))
  | none, some maxFeePerGas => .ok (maxFeePerGas, 0)
  | none, none => .error .payment

/-- The payable fee and the priority, once a declared priority fee has replaced and joined them. -/
def feeAndPriority (data : TransactionData) (gasPrice : U256) (priority : U64) : U256 × U64 :=
  let fee := saturatingMul gasPrice data.gasLimit
  match data.maxPriorityFeePerGas with
  | some maxPriorityFeePerGas =>
    (saturatingAdd fee (saturatingMul maxPriorityFeePerGas data.gasLimit),
      saturateTo 64 maxPriorityFeePerGas)
  | none => (fee, priority)

/-- A call that carries data to an address outside the white list. -/
def isLowerPriority (action : TransactionAction) (input : List UInt8) : Bool :=
  match action with
  | .call address => input.length != 0 && !isInWhiteList chain address
  | .create => false

/-- What a priority is divided by. -/
def priorityDivisor (action : TransactionAction) (input : List UInt8) : U64 :=
  if isLowerPriority chain action input then 20000 else 10000

/-- The controls shared by the pool and the block: the account's nonce and a priority. The last
subtraction wraps, as the release profile of the runtime has it. -/
def validateTransactionCommon (origin : H160) (data : TransactionData) :
    Except InvalidTransaction (U256 × U64) := do
  ensure (gasometer.recordTransaction (saturateTo 64 data.gasLimit)
    (transactionCost gasometer data)) (.custom TransactionValidationError.invalidGasLimit.code)
  ensure (data.chainId.all (· = glitchTestnetChainId))
    (.custom TransactionValidationError.invalidChainId.code)
  ensure (data.gasLimit < blockGasLimit) (.custom TransactionValidationError.invalidGasLimit.code)
  let (gasPrice, priority) ← gasPriceAndPriority data
  ensure (minGasPrice ≤ gasPrice) InvalidTransaction.payment
  let (fee, priority) := feeAndPriority data gasPrice priority
  let accountData := chain.accountBasic origin
  let totalPayment := saturatingAdd data.value fee
  ensure (totalPayment ≤ accountData.balance) InvalidTransaction.payment
  let priority := priority / priorityDivisor chain data.action data.input -
    gasToWeight (saturateTo 64 data.gasLimit)
  return (accountData.nonce, priority)

/-- The pool's view of a valid transaction: its priority, and tags of an account and a nonce. -/
structure ValidTransaction where
  priority : U64
  requires : List (H160 × U256)
  provides : List (H160 × U256)
deriving DecidableEq

/-- The pool refuses a nonce in the past, and waits for the one before a nonce in the future. -/
def validateTransactionInPool (origin : H160) (transaction : Transaction) :
    Except InvalidTransaction ValidTransaction := do
  let data := transactionData transaction
  let (accountNonce, priority) ← validateTransactionCommon gasometer chain origin data
  ensure (¬ data.nonce < accountNonce) InvalidTransaction.stale
  let requires :=
    if accountNonce < data.nonce then
      match checkedSub data.nonce 1 with
      | some prevNonce => [(origin, prevNonce)]
      | none => []
    else []
  return { priority := priority, requires := requires, provides := [(origin, data.nonce)] }

/-- In a block the nonce must be the account's own. -/
def validateTransactionInBlock (origin : H160) (transaction : Transaction) :
    Except InvalidTransaction Unit := do
  let data := transactionData transaction
  let (accountNonce, _) ← validateTransactionCommon gasometer chain origin data
  if accountNonce < data.nonce then .error .future
  else if data.nonce < accountNonce then .error .stale
  else .ok ()

/-! ## What acceptance says -/

namespace Transaction

/-- The price of the gas a transaction commits to. -/
def feeCap : Transaction → U256
  | legacy t => t.gasPrice
  | eip2930 t => t.gasPrice
  | eip1559 t => t.maxFeePerGas

/-- The most a transaction pays for its gas. -/
def payableFee : Transaction → U256
  | legacy t => saturatingMul t.gasPrice t.gasLimit
  | eip2930 t => saturatingMul t.gasPrice t.gasLimit
  | eip1559 t => saturatingAdd (saturatingMul t.maxFeePerGas t.gasLimit)
      (saturatingMul t.maxPriorityFeePerGas t.gasLimit)

/-- What a transaction offers above the base fee. -/
def tip : Transaction → U64
  | legacy t => saturateTo 64 (saturatingSub t.gasPrice minGasPrice)
  | eip2930 t => saturateTo 64 (saturatingSub t.gasPrice minGasPrice)
  | eip1559 t => saturateTo 64 t.maxPriorityFeePerGas

end Transaction

/-- What validation reserves for gas and value. -/
def totalPayment (t : Transaction) : U256 := saturatingAdd t.value t.payableFee

/-- The tip of a transaction, scaled down by its class. -/
def tipQuotient (t : Transaction) : U64 := t.tip / priorityDivisor chain t.action t.input

/-- The weight of a transaction's gas. -/
def gasWeight (t : Transaction) : U64 := gasToWeight (saturateTo 64 t.gasLimit)

/-- What a transaction must satisfy for the shared controls to pass. -/
structure Acceptable (origin : H160) (t : Transaction) : Prop where
  bytesPaid : gasometer.recordTransaction (saturateTo 64 t.gasLimit)
    (transactionCost gasometer (transactionData t)) = true
  chainBound : (transactionData t).chainId.all (· = glitchTestnetChainId) = true
  gasBounded : t.gasLimit < blockGasLimit
  feeCovered : minGasPrice ≤ t.feeCap
  affordable : totalPayment t ≤ (chain.accountBasic origin).balance

/-- Each format has a price, and the fee and tip it ends with depend on the format alone. -/
theorem fees_transactionData (t : Transaction) :
    ∃ priority, gasPriceAndPriority (transactionData t) = .ok (t.feeCap, priority) ∧
      feeAndPriority (transactionData t) t.feeCap priority = (t.payableFee, t.tip) := by
  cases t with
  | legacy t => exact ⟨_, rfl, rfl⟩
  | eip2930 t => exact ⟨_, rfl, rfl⟩
  | eip1559 t => exact ⟨_, rfl, rfl⟩

variable {gasometer chain} {origin : H160} {t : Transaction} {nonce : U256} {priority : U64}

/-- The shared controls pass on acceptable transactions, with the account's nonce and the scaled
tip less the weight of the gas. -/
theorem validateTransactionCommon_eq_ok :
    validateTransactionCommon gasometer chain origin (transactionData t) = .ok (nonce, priority) ↔
      Acceptable gasometer chain origin t ∧ (chain.accountBasic origin).nonce = nonce ∧
        tipQuotient chain t - gasWeight t = priority := by
  obtain ⟨base, priced, fees⟩ := fees_transactionData t
  simp only [validateTransactionCommon, priced, bind_eq_ok, ensure_eq_ok, pure_eq_ok,
    transactionData_gasLimit, transactionData_value, transactionData_action,
    transactionData_input, Except.ok.injEq, Prod.mk.injEq]
  constructor
  · rintro ⟨-, bytes, -, bound, -, gas, -, ⟨rfl⟩, -, floor, -, affordable, nonces, scaled⟩
    simp only [fees] at floor affordable scaled
    exact ⟨⟨bytes, bound, gas, floor, affordable⟩, nonces, scaled⟩
  · rintro ⟨accepted, nonces, scaled⟩
    refine ⟨(), accepted.bytesPaid, (), accepted.chainBound, (), accepted.gasBounded, _, rfl, (),
      accepted.feeCovered, (), ?_, nonces, ?_⟩
    · simp only [fees]
      exact accepted.affordable
    · simp only [fees]
      exact scaled

/-- The pool takes the acceptable transactions whose nonce is not in the past. One in the future
waits for its predecessor, and none wraps around to the largest nonce. -/
theorem validateTransactionInPool_eq_ok {valid : ValidTransaction} :
    validateTransactionInPool gasometer chain origin t = .ok valid ↔
      Acceptable gasometer chain origin t ∧ (chain.accountBasic origin).nonce ≤ t.nonce ∧
        valid = {
          priority := tipQuotient chain t - gasWeight t
          requires := if (chain.accountBasic origin).nonce = t.nonce then []
            else [(origin, t.nonce - 1)]
          provides := [(origin, t.nonce)] } := by
  simp only [validateTransactionInPool, bind_eq_ok, Prod.exists, validateTransactionCommon_eq_ok,
    transactionData_nonce, ensure_eq_ok, pure_eq_ok, BitVec.not_lt]
  have tags (past : (chain.accountBasic origin).nonce ≤ t.nonce) :
      (if (chain.accountBasic origin).nonce < t.nonce then
        match checkedSub t.nonce 1 with
        | some prevNonce => [(origin, prevNonce)]
        | none => []
      else []) =
        if (chain.accountBasic origin).nonce = t.nonce then [] else [(origin, t.nonce - 1)] := by
    split_ifs with future same same
    · exact absurd future (by simp [same])
    · have positive : (1 : U256) ≤ t.nonce := by
        rw [BitVec.lt_def] at future
        rw [BitVec.le_def]
        change 1 ≤ t.nonce.toNat
        omega
      rw [checkedSub_of_le positive]
    · rfl
    · exact absurd (BitVec.le_antisymm past (BitVec.not_lt.mp future)) same
  constructor
  · rintro ⟨nonce, priority, ⟨accepted, rfl, rfl⟩, -, past, rfl⟩
    exact ⟨accepted, past, by rw [tags past]⟩
  · rintro ⟨accepted, past, rfl⟩
    exact ⟨_, _, ⟨accepted, rfl, rfl⟩, (), past, by rw [tags past]⟩

/-- A block takes the acceptable transactions that carry the account's nonce. -/
theorem validateTransactionInBlock_eq_ok :
    validateTransactionInBlock gasometer chain origin t = .ok () ↔
      Acceptable gasometer chain origin t ∧ t.nonce = (chain.accountBasic origin).nonce := by
  simp only [validateTransactionInBlock, bind_eq_ok, Prod.exists, validateTransactionCommon_eq_ok,
    transactionData_nonce]
  constructor
  · rintro ⟨nonce, _, ⟨accepted, rfl, -⟩, success⟩
    split_ifs at success with future stale
    exact ⟨accepted, BitVec.le_antisymm (BitVec.not_lt.mp future) (BitVec.not_lt.mp stale)⟩
  · rintro ⟨accepted, same⟩
    refine ⟨_, _, ⟨accepted, rfl, rfl⟩, ?_⟩
    simp [same]

end GlitchRuntime.Ethereum

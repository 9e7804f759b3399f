import GlitchRuntime.Ethereum.Execution
import GlitchRuntime.Lib.HashChain
import GlitchRuntime.Lib.Runs

/-! # The chain of Ethereum blocks

Every block of the runtime ends by storing an Ethereum block over the transactions that were applied
in it. The hashes of the latest blocks are kept, and that of genesis.
-/

namespace GlitchRuntime.Ethereum

open Lib Lib.Word

/-- The header of a block. -/
structure Header where
  parentHash : H256
  ommersHash : H256
  beneficiary : H160
  stateRoot : H256
  transactionsRoot : H256
  receiptsRoot : H256
  logsBloom : Bloom
  difficulty : U256
  number : U256
  gasLimit : U256
  gasUsed : U256
  timestamp : U64
  extraData : List UInt8
  mixHash : H256
  nonce : U64
deriving DecidableEq

/-- `ethereum::BlockV2`. -/
structure Block where
  header : Header
  transactions : List Transaction
  ommers : List Header
deriving DecidableEq

/-- The hash of a header, and the roots of the tries over lists. -/
structure Hashing where
  header : Header → H256
  ommers : List Header → H256
  transactionsRoot : List Transaction → H256
  receiptsRoot : List Receipt → H256

/-- What other pallets say about the block that ends. -/
structure Environment where
  author : H160
  stateRoot : H256
  timestamp : U64

/-- Where the runtime is in the life of its blocks. While a block is built, `preLog` says whether its
digest holds an Ethereum block to import. -/
inductive Phase
  | unborn
  | sealed
  | building (preLog : Bool)
deriving DecidableEq

/-- The storage of the pallet, with the number of the block that the system is at. -/
structure Storage extends BlockState where
  currentBlock : Option Block
  currentReceipts : Option (List Receipt)
  currentTransactionStatuses : Option (List TransactionStatus)
  blockHash : U256 → H256
  number : ℕ
  phase : Phase

/-- Storage before genesis. -/
def Storage.empty (chain : Chain) : Storage where
  chain
  pending := []
  events := []
  currentBlock := none
  currentReceipts := none
  currentTransactionStatuses := none
  blockHash _ := 0
  number := 0
  phase := .unborn

/-- What `store_block` collects from the pending transactions. -/
structure Contents where
  transactions : List Transaction
  statuses : List TransactionStatus
  receipts : List Receipt
  logsBloom : Bloom
  cumulativeGasUsed : U256

variable {Cost : Type} (gasometer : Gasometer Cost) (runner : Runner) (digests : Digests)
  (hashing : Hashing) (recoverSigner : Transaction → Option H160) (blockHashCount : ℕ)

/-- Take one pending transaction into the block. -/
def Contents.push (contents : Contents) (entry : Transaction × TransactionStatus × Receipt) :
    Contents where
  transactions := contents.transactions ++ [entry.1]
  statuses := contents.statuses ++ [entry.2.1]
  receipts := contents.receipts ++ [entry.2.2]
  logsBloom := Ethereum.logsBloom digests entry.2.2.data.logs contents.logsBloom
  cumulativeGasUsed := entry.2.2.data.usedGas

/-- What the pending transactions make up. -/
def collect (pending : List (Transaction × TransactionStatus × Receipt)) : Contents :=
  pending.foldl (Contents.push digests) ⟨[], [], [], 0, 0⟩

/-- The hash of the current block, if there is one. -/
def currentBlockHash (state : Storage) : Option H256 :=
  state.currentBlock.map fun block => hashing.header block.header

/-- The block over what is pending. -/
def blockOf (state : Storage) (environment : Environment) (blockNumber : U256) : Block :=
  let contents := collect digests state.pending
  { header := {
      parentHash := (currentBlockHash hashing state).getD 0
      ommersHash := hashing.ommers []
      beneficiary := environment.author
      stateRoot := environment.stateRoot
      transactionsRoot := hashing.transactionsRoot contents.transactions
      receiptsRoot := hashing.receiptsRoot contents.receipts
      logsBloom := contents.logsBloom
      difficulty := 0
      number := blockNumber
      gasLimit := blockGasLimit
      gasUsed := contents.cumulativeGasUsed
      timestamp := environment.timestamp
      extraData := []
      mixHash := 0
      nonce := 0 }
    transactions := contents.transactions
    ommers := [] }

/-- `PostLog::Hashes`, deposited as a digest. -/
structure PostLog where
  blockHash : H256
  transactionHashes : List H256
deriving DecidableEq

/-- What a step of the chain leaves: a transaction that was applied, or a block that was stored with
its statuses, receipts and digest. -/
inductive BlockReceipt
  | applied (transaction : Transaction)
  | stored (block : Block) (statuses : List TransactionStatus) (receipts : List Receipt)
      (postLog : Option PostLog)

/-- Store the block over what is pending. -/
def storeBlock (state : Storage) (environment : Environment) (postLog : Bool)
    (blockNumber : U256) : Storage × BlockReceipt :=
  let contents := collect digests state.pending
  let block := blockOf digests hashing state environment blockNumber
  ({ state with
      currentBlock := some block
      currentReceipts := some contents.receipts
      currentTransactionStatuses := some contents.statuses
      blockHash := Function.update state.blockHash blockNumber (hashing.header block.header) },
    .stored block contents.statuses contents.receipts
      (if postLog then
        some ⟨hashing.header block.header, block.transactions.map digests.hash⟩
      else none))

/-- Move the block hash pruning window by one block, keeping the genesis hash. -/
def pruneHashes (state : Storage) (number : ℕ) : Storage :=
  let toRemove := number - blockHashCount - 1
  if toRemove ≠ 0 then
    { state with
      blockHash := Function.update state.blockHash (BitVec.ofNat 256 toRemove) 0 }
  else state

/-- A transaction is recovered, validated and applied, or the block is invalid. -/
def includeTransaction (state : BlockState) (transaction : Transaction) : Option BlockState := do
  let source ← recoverSigner transaction
  importTransactions gasometer runner digests state [(source, transaction)]

/-- Include the transactions of a list, one after the other. -/
def includeAll (state : BlockState) : List Transaction → Option BlockState
  | [] => some state
  | transaction :: rest => do
    let state ← includeTransaction gasometer runner digests recoverSigner state transaction
    includeAll state rest

/-- One step of the runtime, as far as Ethereum blocks see it. -/
inductive BlockCall
  | genesis (environment : Environment)
  /-- With the block that the digest holds, if it holds one. -/
  | onInitialize (preLog : Option Block)
  | transact (transaction : Transaction)
  | onFinalize (environment : Environment)
  /-- Whatever other pallets do to accounts. -/
  | outside (chain : Chain)

/-- Why a step does not happen. -/
inductive BlockRefusal
  /-- The pallet panics, and the block is invalid. -/
  | panic
  | misplaced
deriving DecidableEq

/-- Begin the next block, importing what its digest holds. -/
def onInitialize (state : Storage) (preLog : Option Block) :
    Option (Storage × List BlockReceipt) := do
  let fresh : BlockState := { state.toBlockState with pending := [], events := [] }
  let transactions := (preLog.map (·.transactions)).getD []
  let imported ← includeAll gasometer runner digests recoverSigner fresh transactions
  return ({ state with
    toBlockState := imported
    number := state.number + 1
    phase := .building preLog.isSome }, transactions.map .applied)

/-- Store the block that ends, and prune the hashes. -/
def onFinalize (state : Storage) (environment : Environment) (preLog : Bool) :
    Storage × BlockReceipt :=
  let (stored, receipt) := storeBlock digests hashing state environment (!preLog)
    (BitVec.ofNat 256 state.number)
  ({ pruneHashes blockHashCount stored state.number with phase := .sealed }, receipt)

/-- One step of the chain and the receipts it leaves. Block numbers have 32 bits. -/
def blockStep (state : Storage) : BlockCall → Except BlockRefusal (Storage × List BlockReceipt)
  | .genesis environment =>
    match state.phase with
    | .unborn =>
      let (stored, receipt) := storeBlock digests hashing state environment false 0
      .ok ({ stored with phase := .sealed }, [receipt])
    | _ => .error .misplaced
  | .onInitialize preLog =>
    match state.phase with
    | .sealed =>
      if state.number + 1 < 2 ^ 32 then
        okOr (onInitialize gasometer runner digests recoverSigner state preLog) .panic
      else .error .misplaced
    | _ => .error .misplaced
  | .transact transaction =>
    match state.phase with
    | .building false =>
      match includeTransaction gasometer runner digests recoverSigner state.toBlockState
        transaction with
      | some included => .ok ({ state with toBlockState := included }, [.applied transaction])
      | none => .error .panic
    -- `transact` asserts that the digest holds no block
    | .building true => .error .panic
    | _ => .error .misplaced
  | .onFinalize environment =>
    match state.phase with
    | .building preLog =>
      let (next, receipt) := onFinalize digests hashing blockHashCount state environment preLog
      .ok (next, [receipt])
    | _ => .error .misplaced
  | .outside chain => .ok ({ state with chain }, [])

/-- The chain of Ethereum blocks as a machine. -/
def blockSystem : Machine Storage BlockCall BlockRefusal BlockReceipt :=
  ⟨blockStep gasometer runner digests hashing recoverSigner blockHashCount⟩

/-- A state of the chain, with what was applied and stored on the way to it. -/
def BlocksReachable (state : Storage) (log : List BlockReceipt) : Prop :=
  (blockSystem gasometer runner digests hashing recoverSigner blockHashCount).Reachable
    (fun source => ∃ chain, source = .empty chain) (fun _ => True) state log

end GlitchRuntime.Ethereum

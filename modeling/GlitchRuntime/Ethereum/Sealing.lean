import GlitchRuntime.Ethereum.Admission
import GlitchRuntime.Ethereum.Blocks

/-! # What stored blocks say

Stored blocks are numbered and linked from genesis on, and hashes are kept for the window and for
genesis. A block has the transactions that were applied since the one before it, each once and in
order, with the statuses and receipts that belong to them.
-/

namespace GlitchRuntime.Ethereum

open Lib Lib.Word

variable {Cost : Type} {gasometer : Gasometer Cost} {runner : Runner} {digests : Digests}
  {hashing : Hashing} {recoverSigner : Transaction → Option H160} {blockHashCount : ℕ}

/-! ## What is pending -/

/-- A status and a receipt that belong to a transaction at a position. -/
structure Belongs (digests : Digests) (index : ℕ) (transaction : Transaction)
    (status : TransactionStatus) (receipt : Receipt) : Prop where
  transactionHash : status.transactionHash = digests.hash transaction
  transactionIndex : status.transactionIndex = UInt32.ofNat index
  statusBloom : status.logsBloom = logsBloom digests status.logs 0
  logs : receipt.data.logs = status.logs
  receiptBloom : receipt.data.logsBloom = status.logsBloom
  format : receipt = receiptOf transaction receipt.data

/-- The gas that receipts say was used up to each of them. -/
def gasUsed (pending : List (Transaction × TransactionStatus × Receipt)) : List ℕ :=
  pending.map fun entry => entry.2.2.data.usedGas.toNat

/-- Pending transactions with what belongs to them, in the order in which gas was used up. -/
structure Aligned (digests : Digests) (state : BlockState) : Prop where
  belongs : ∀ index entry, state.pending[index]? = some entry →
    Belongs digests index entry.1 entry.2.1 entry.2.2
  rising : (gasUsed state.pending).Pairwise (· ≤ ·)
  events : state.events.map (·.transactionHash) =
    state.pending.map fun entry => digests.hash entry.1

theorem Aligned.fresh {state : BlockState} (pending : state.pending = [])
    (events : state.events = []) : Aligned digests state where
  belongs index entry present := by
    rw [pending] at present
    simp at present
  rising := by
    rw [pending]
    exact List.Pairwise.nil
  events := by rw [pending, events]; rfl

theorem receiptOf_data (transaction : Transaction) (data : ReceiptData) :
    (receiptOf transaction data).data = data := by
  cases transaction <;> rfl

/-- What applying a transaction adds to what is pending. -/
theorem applyValidatedTransaction_adds {state next : BlockState} {source : H160}
    {transaction : Transaction} {info : PostDispatchInfo}
    (applied : applyValidatedTransaction runner digests state source transaction =
      some (next, info)) :
    ∃ status receipt event usedGas,
      next.pending = state.pending ++ [(transaction, status, receipt)] ∧
      next.events = state.events ++ [event] ∧
      Belongs digests state.pending.length transaction status receipt ∧
      receipt.data.usedGas = cumulativeGasUsed state.pending usedGas ∧
      event.transactionHash = digests.hash transaction := by
  cases executed : execute runner state.chain source transaction with
  | error problem => simp [applyValidatedTransaction, executed, Except.toOption] at applied
  | ok done =>
    obtain ⟨⟨target, _, outcome⟩, chain⟩ := done
    simp only [applyValidatedTransaction, Except.toOption, executed, Option.bind_eq_bind,
      Option.bind_some, Option.some.injEq, Prod.mk.injEq] at applied
    rw [← applied.1]
    cases outcome with
    | call info =>
      refine ⟨_, _, _, info.usedGas, rfl, rfl, ⟨rfl, rfl, rfl, ?_, ?_, ?_⟩, ?_, rfl⟩
      all_goals rw [receiptOf_data]
    | create info =>
      refine ⟨_, _, _, info.usedGas, rfl, rfl, ⟨rfl, rfl, rfl, ?_, ?_, ?_⟩, ?_, rfl⟩
      all_goals rw [receiptOf_data]

/-- The gas used up to the next transaction is no less than any before. -/
theorem le_cumulativeGasUsed {pending : List (Transaction × TransactionStatus × Receipt)}
    (rising : (gasUsed pending).Pairwise (· ≤ ·)) (usedGas : U256) :
    ∀ gas ∈ gasUsed pending, gas ≤ (cumulativeGasUsed pending usedGas).toNat := by
  rcases List.eq_nil_or_concat' pending with rfl | ⟨before, last, rfl⟩
  · exact List.forall_mem_nil _
  · have here : last.2.2.data.usedGas.toNat ≤
        (cumulativeGasUsed (before ++ [last]) usedGas).toNat := by
      unfold cumulativeGasUsed
      rw [List.getLast?_concat]
      obtain ⟨transaction, status, receipt⟩ := last
      dsimp only
      rw [toNat_saturatingAdd]
      have bound := receipt.data.usedGas.isLt
      omega
    unfold gasUsed at rising ⊢
    rw [List.map_append, List.pairwise_append] at rising
    intro gas member
    rw [List.map_append, List.mem_append] at member
    rcases member with earlier | mine
    · exact (rising.2.2 gas earlier _ (List.mem_singleton.mpr rfl)).trans here
    · rw [List.mem_singleton.mp mine]
      exact here

/-- Applying a transaction keeps what is pending aligned. -/
theorem Aligned.apply {state next : BlockState} (aligned : Aligned digests state) {source : H160}
    {transaction : Transaction} {info : PostDispatchInfo}
    (applied : applyValidatedTransaction runner digests state source transaction =
      some (next, info)) :
    Aligned digests next ∧
      next.pending.map (·.1) = state.pending.map (·.1) ++ [transaction] := by
  obtain ⟨status, receipt, event, usedGas, pending, events, belongs, gas, hash⟩ :=
    applyValidatedTransaction_adds applied
  refine ⟨⟨?_, ?_, ?_⟩, by rw [pending, List.map_append]; rfl⟩
  · intro index entry present
    rw [pending, List.getElem?_append] at present
    split_ifs at present with earlier
    · exact aligned.belongs index entry present
    · obtain ⟨inside, rfl⟩ := List.getElem?_eq_some_iff.mp present
      have here : index = state.pending.length := by
        rw [List.length_singleton] at inside
        omega
      subst here
      simpa using belongs
  · unfold gasUsed
    rw [pending, List.map_append, List.pairwise_append]
    refine ⟨aligned.rising, List.pairwise_singleton _ _, ?_⟩
    intro before member after mine
    obtain rfl : after = receipt.data.usedGas.toNat := by simpa using mine
    rw [gas]
    exact le_cumulativeGasUsed aligned.rising usedGas before member
  · rw [events, pending, List.map_append, List.map_append, aligned.events]
    simp [hash]

/-- Including a transaction appends it to what is pending. -/
theorem Aligned.includeOne {state next : BlockState} (aligned : Aligned digests state)
    {transaction : Transaction}
    (included : includeTransaction gasometer runner digests recoverSigner state transaction =
      some next) :
    Aligned digests next ∧ next.pending.map (·.1) = state.pending.map (·.1) ++ [transaction] := by
  simp only [includeTransaction, importTransactions, Option.bind_eq_bind,
    Option.bind_eq_some_iff] at included
  obtain ⟨source, -, done, -, ⟨after, info⟩, applied, rest⟩ := included
  obtain rfl := Option.some.inj rest
  exact aligned.apply applied

theorem Aligned.includeAll {transactions : List Transaction} {state next : BlockState}
    (aligned : Aligned digests state)
    (included : includeAll gasometer runner digests recoverSigner state transactions = some next) :
    Aligned digests next ∧ next.pending.map (·.1) = state.pending.map (·.1) ++ transactions := by
  induction transactions generalizing state with
  | nil =>
    obtain rfl := Option.some.inj included
    exact ⟨aligned, (List.append_nil _).symm⟩
  | cons transaction rest ih =>
    simp only [Ethereum.includeAll, Option.bind_eq_bind, Option.bind_eq_some_iff] at included
    obtain ⟨middle, first, others⟩ := included
    obtain ⟨holds, pending⟩ := aligned.includeOne first
    obtain ⟨keeps, all⟩ := ih holds others
    refine ⟨keeps, ?_⟩
    rw [all, pending, List.append_assoc]
    rfl

/-! ## What a block has -/

/-- What the loop over the pending transactions collects. -/
theorem collect_eq (pending : List (Transaction × TransactionStatus × Receipt)) :
    collect digests pending =
      { transactions := pending.map (·.1)
        statuses := pending.map (·.2.1)
        receipts := pending.map (·.2.2)
        logsBloom := logsBloom digests (pending.flatMap fun entry => entry.2.2.data.logs) 0
        cumulativeGasUsed := (pending.getLast?.map fun entry => entry.2.2.data.usedGas).getD 0 } := by
  unfold collect
  induction pending using List.reverseRecOn with
  | nil => rfl
  | append_singleton before last ih =>
    rw [List.foldl_append, ih, List.foldl_cons, List.foldl_nil]
    simp [Contents.push, logsBloom]

/-- A block with the statuses and receipts of its transactions. -/
structure Faithful (digests : Digests) (hashing : Hashing) (block : Block)
    (statuses : List TransactionStatus) (receipts : List Receipt) : Prop where
  statuses_length : statuses.length = block.transactions.length
  receipts_length : receipts.length = block.transactions.length
  belongs : ∀ index transaction status receipt, block.transactions[index]? = some transaction →
    statuses[index]? = some status → receipts[index]? = some receipt →
    Belongs digests index transaction status receipt
  rising : (receipts.map (·.data.usedGas.toNat)).Pairwise (· ≤ ·)
  gasUsed : block.header.gasUsed = (receipts.getLast?.map (·.data.usedGas)).getD 0
  logsBloom : block.header.logsBloom =
    Ethereum.logsBloom digests (receipts.flatMap (·.data.logs)) 0
  transactionsRoot : block.header.transactionsRoot = hashing.transactionsRoot block.transactions
  receiptsRoot : block.header.receiptsRoot = hashing.receiptsRoot receipts
  ommers : block.ommers = []

/-- A block over aligned transactions is faithful. -/
theorem Aligned.faithful {state : Storage} (aligned : Aligned digests state.toBlockState)
    (environment : Environment) (number : U256) :
    Faithful digests hashing (blockOf digests hashing state environment number)
      (collect digests state.pending).statuses (collect digests state.pending).receipts := by
  unfold blockOf
  rw [collect_eq]
  constructor
  · simp
  · simp
  · intro index transaction status receipt here there where_
    simp only [List.getElem?_map, Option.map_eq_some_iff] at here there where_
    obtain ⟨entry, present, rfl⟩ := here
    obtain ⟨other, same, rfl⟩ := there
    obtain ⟨another, again, rfl⟩ := where_
    obtain rfl := Option.some.inj (present.symm.trans same)
    obtain rfl := Option.some.inj (present.symm.trans again)
    exact aligned.belongs index entry present
  · have rising := aligned.rising
    unfold gasUsed at rising
    rw [List.map_map]
    exact rising
  · dsimp only
    rw [List.getLast?_map, Option.map_map]
    rfl
  · dsimp only
    rw [List.flatMap_map]
  · rfl
  · rfl
  · rfl

/-! ## The chain in every run -/

/-- The blocks that were stored, from genesis on. -/
def storedBlocks (log : List BlockReceipt) : List Block :=
  log.filterMap fun
    | .stored block _ _ _ => some block
    | .applied _ => none

/-- The transactions that were applied, in order. -/
def appliedTransactions (log : List BlockReceipt) : List Transaction :=
  log.filterMap fun
    | .applied transaction => some transaction
    | .stored .. => none

/-- The transactions of the block that is being built. -/
def openTransactions (state : Storage) : List Transaction :=
  match state.phase with
  | .building _ => state.pending.map (·.1)
  | _ => []

/-- How many blocks there are before the one that is stored next. -/
def nextNumber (state : Storage) : ℕ :=
  match state.phase with
  | .sealed => state.number + 1
  | _ => state.number

/-- The hashes of the latest blocks, and that of genesis. -/
def keptHash (hashing : Hashing) (blockHashCount : ℕ) (blocks : List Block) (number : ℕ) : H256 :=
  if number = 0 ∨ blocks.length ≤ number + blockHashCount + 1 then
    (blocks[number]?.map fun block => hashing.header block.header).getD 0
  else 0

/-- What storage knows of the blocks that were stored. -/
structure Chained (hashing : Hashing) (blockHashCount : ℕ) (state : Storage)
    (blocks : List Block) : Prop where
  linked : Linked hashing.header Header.parentHash 0 (blocks.map (·.header))
  current : state.currentBlock = blocks.getLast?
  numbered : ∀ number block, blocks[number]? = some block →
    block.header.number = BitVec.ofNat 256 number
  length : blocks.length = nextNumber state
  small : state.number < 2 ^ 32
  unborn : state.phase = .unborn → state.number = 0
  window : ∀ number < 2 ^ 32,
    state.blockHash (BitVec.ofNat 256 number) = keptHash hashing blockHashCount blocks number

theorem numberKey_inj {first second : ℕ} (left : first < 2 ^ 32) (right : second < 2 ^ 32) :
    BitVec.ofNat 256 first = BitVec.ofNat 256 second ↔ first = second := by
  refine ⟨fun same => ?_, fun same => by rw [same]⟩
  have values := congrArg BitVec.toNat same
  rw [BitVec.toNat_ofNat, BitVec.toNat_ofNat, Nat.mod_eq_of_lt (by omega),
    Nat.mod_eq_of_lt (by omega)] at values
  exact values

/-- Writing at a number, as the table sees it. -/
theorem update_number (table : U256 → H256) {place other : ℕ} (left : other < 2 ^ 32)
    (right : place < 2 ^ 32) (value : H256) :
    Function.update table (BitVec.ofNat 256 place) value (BitVec.ofNat 256 other) =
      if other = place then value else table (BitVec.ofNat 256 other) := by
  split_ifs with same
  · rw [same, Function.update_self]
  · exact Function.update_of_ne (fun clash => same ((numberKey_inj left right).mp clash)) _ _

/-- Storing a block moves the window by one. -/
theorem window_store {before : U256 → H256} {blocks : List Block} {block : Block} {number : ℕ}
    (length : blocks.length = number) (small : number < 2 ^ 32)
    (window : ∀ other < 2 ^ 32,
      before (BitVec.ofNat 256 other) = keptHash hashing blockHashCount blocks other)
    {after : U256 → H256}
    (pruned : after =
      if number - blockHashCount - 1 ≠ 0 then
        Function.update
          (Function.update before (BitVec.ofNat 256 number) (hashing.header block.header))
          (BitVec.ofNat 256 (number - blockHashCount - 1)) 0
      else Function.update before (BitVec.ofNat 256 number) (hashing.header block.header))
    {other : ℕ} (bound : other < 2 ^ 32) :
    after (BitVec.ofNat 256 other) =
      keptHash hashing blockHashCount (blocks ++ [block]) other := by
  have gone : number - blockHashCount - 1 < 2 ^ 32 := by omega
  have old := window other bound
  have added : Function.update before (BitVec.ofNat 256 number) (hashing.header block.header)
      (BitVec.ofNat 256 other) =
      if other = number then hashing.header block.header
      else keptHash hashing blockHashCount blocks other := by
    rw [update_number _ bound small, old]
  have result : after (BitVec.ofNat 256 other) =
      if number - blockHashCount - 1 ≠ 0 ∧ other = number - blockHashCount - 1 then 0
      else if other = number then hashing.header block.header
      else keptHash hashing blockHashCount blocks other := by
    rw [pruned]
    by_cases prunes : number - blockHashCount - 1 ≠ 0
    · rw [if_pos prunes, update_number _ bound gone, added]
      simp only [prunes, ne_eq, not_false_eq_true, true_and]
    · rw [if_neg prunes, added]
      simp only [prunes, false_and, if_false]
  rw [result]
  unfold keptHash
  rw [List.length_append, List.length_singleton, length]
  by_cases here : other = number
  · have last : (blocks ++ [block])[other]? = some block := by
      rw [here, ← length]
      simp
    rw [if_neg (by omega), if_pos here, if_pos (by omega), last]
    rfl
  · have same : (blocks ++ [block])[other]? = blocks[other]? := by
      by_cases inside : other < blocks.length
      · rw [List.getElem?_append_left inside]
      · rw [List.getElem?_eq_none (by simp; omega), List.getElem?_eq_none (by omega)]
    rw [same, if_neg here]
    by_cases beyond : number < other
    · rw [List.getElem?_eq_none (by omega)]
      simp
    · split_ifs <;> first | rfl | omega

/-- The storage after a block was stored and the window moved. -/
def sealedStorage (digests : Digests) (hashing : Hashing) (blockHashCount : ℕ) (state : Storage)
    (environment : Environment) (postLog : Bool) : Storage :=
  { pruneHashes blockHashCount
      (storeBlock digests hashing state environment postLog (BitVec.ofNat 256 state.number)).1
      state.number with phase := .sealed }

/-- Genesis prunes nothing. -/
theorem pruneHashes_zero (state : Storage) : pruneHashes blockHashCount state 0 = state := by
  unfold pruneHashes
  simp

/-- What storing and pruning write. -/
theorem sealedStorage_eq (state : Storage) (environment : Environment) (postLog : Bool) :
    sealedStorage digests hashing blockHashCount state environment postLog =
      let block := blockOf digests hashing state environment (BitVec.ofNat 256 state.number)
      { state with
        currentBlock := some block
        currentReceipts := some (collect digests state.pending).receipts
        currentTransactionStatuses := some (collect digests state.pending).statuses
        blockHash :=
          if state.number - blockHashCount - 1 ≠ 0 then
            Function.update
              (Function.update state.blockHash (BitVec.ofNat 256 state.number)
                (hashing.header block.header))
              (BitVec.ofNat 256 (state.number - blockHashCount - 1)) 0
          else Function.update state.blockHash (BitVec.ofNat 256 state.number)
            (hashing.header block.header)
        phase := .sealed } := by
  unfold sealedStorage pruneHashes
  dsimp only
  split_ifs <;> rfl

/-- A block that is stored continues the chain. -/
theorem Chained.store {state : Storage} {blocks : List Block}
    (chained : Chained hashing blockHashCount state blocks) (unsealed : state.phase ≠ .sealed)
    (environment : Environment) (postLog : Bool) :
    Chained hashing blockHashCount
      (sealedStorage digests hashing blockHashCount state environment postLog)
      (blocks ++ [blockOf digests hashing state environment (BitVec.ofNat 256 state.number)]) := by
  have length : blocks.length = state.number := by
    rw [chained.length, nextNumber]
    split
    · next sealed => exact absurd sealed unsealed
    · rfl
  rw [sealedStorage_eq]
  refine ⟨?_, ?_, ?_, ?_, chained.small, ?_, ?_⟩
  · rw [List.map_append]
    refine .snoc chained.linked ?_
    change (currentBlockHash hashing state).getD 0 = _
    rw [currentBlockHash, chained.current, List.getLast?_map, Option.map_map]
    rfl
  · rw [List.getLast?_concat]
  · intro number block present
    rw [List.getElem?_append] at present
    split_ifs at present with earlier
    · exact chained.numbered number block present
    · obtain ⟨inside, rfl⟩ := List.getElem?_eq_some_iff.mp present
      have here : number = state.number := by
        rw [List.length_singleton] at inside
        omega
      rw [List.getElem_singleton, here]
      rfl
  · rw [List.length_append, List.length_singleton, length]
    rfl
  · exact fun unborn => nomatch unborn
  · exact fun number bound =>
      window_store length chained.small chained.window rfl bound

/-- The blocks and transactions of a run, and what storage knows of them. -/
structure Consistent (digests : Digests) (hashing : Hashing) (blockHashCount : ℕ) (state : Storage)
    (log : List BlockReceipt) : Prop where
  aligned : Aligned digests state.toBlockState
  fresh : state.phase = .unborn → state.pending = []
  once : appliedTransactions log =
    (storedBlocks log).flatMap (·.transactions) ++ openTransactions state
  faithful : ∀ block statuses receipts postLog,
    .stored block statuses receipts postLog ∈ log → Faithful digests hashing block statuses receipts
  shown : ∀ block, state.currentBlock = some block → ∃ statuses receipts,
    state.currentTransactionStatuses = some statuses ∧ state.currentReceipts = some receipts ∧
      Faithful digests hashing block statuses receipts
  chained : Chained hashing blockHashCount state (storedBlocks log)

theorem storedBlocks_append (first second : List BlockReceipt) :
    storedBlocks (first ++ second) = storedBlocks first ++ storedBlocks second :=
  List.filterMap_append

theorem appliedTransactions_append (first second : List BlockReceipt) :
    appliedTransactions (first ++ second) =
      appliedTransactions first ++ appliedTransactions second :=
  List.filterMap_append

theorem storedBlocks_applied (transactions : List Transaction) :
    storedBlocks (transactions.map .applied) = [] := by
  induction transactions with
  | nil => rfl
  | cons _ rest ih => exact ih

theorem appliedTransactions_applied (transactions : List Transaction) :
    appliedTransactions (transactions.map .applied) = transactions := by
  induction transactions with
  | nil => rfl
  | cons first rest ih =>
    change first :: appliedTransactions (rest.map .applied) = _
    rw [ih]

namespace Consistent

variable {state after : Storage} {log : List BlockReceipt}

theorem empty (chain : Chain) :
    Consistent digests hashing blockHashCount (Storage.empty chain) [] where
  aligned := .fresh rfl rfl
  fresh _ := rfl
  once := rfl
  faithful _ _ _ _ member := absurd member List.not_mem_nil
  shown _ present := nomatch present
  chained := by
    refine ⟨.nil, rfl, fun number block present => by simp [storedBlocks] at present, rfl,
      Nat.two_pow_pos 32, fun _ => rfl, fun number bound => ?_⟩
    unfold keptHash
    split_ifs <;> rfl

/-- The transactions of a new block are those that were open. -/
theorem store (holds : Consistent digests hashing blockHashCount state log)
    (unsealed : state.phase ≠ .sealed) (environment : Environment) (postLog : Bool)
    {receipt : BlockReceipt}
    (stores : receipt = (storeBlock digests hashing state environment postLog
      (BitVec.ofNat 256 state.number)).2) :
    Consistent digests hashing blockHashCount
      (sealedStorage digests hashing blockHashCount state environment postLog)
      (log ++ [receipt]) := by
  subst stores
  have opened : openTransactions state = state.pending.map (·.1) := by
    unfold openTransactions
    cases place : state.phase with
    | unborn => rw [holds.fresh place]; rfl
    | sealed => exact absurd place unsealed
    | building preLog => rfl
  constructor
  · rw [sealedStorage_eq]
    exact holds.aligned
  · intro unborn
    rw [sealedStorage_eq] at unborn
    exact nomatch unborn
  · rw [appliedTransactions_append, storedBlocks_append, List.flatMap_append, holds.once, opened]
    have closed : openTransactions
        (sealedStorage digests hashing blockHashCount state environment postLog) = [] := rfl
    rw [closed]
    simp [storeBlock, appliedTransactions, storedBlocks, blockOf, collect_eq]
  · intro block statuses receipts postLog' member
    rcases List.mem_append.mp member with earlier | here
    · exact holds.faithful block statuses receipts postLog' earlier
    · obtain ⟨rfl, rfl, rfl, -⟩ := BlockReceipt.stored.inj (List.mem_singleton.mp here)
      exact holds.aligned.faithful environment _
  · intro block present
    rw [sealedStorage_eq] at present ⊢
    obtain rfl := Option.some.inj present
    exact ⟨_, _, rfl, rfl, holds.aligned.faithful environment _⟩
  · rw [storedBlocks_append]
    exact holds.chained.store unsealed environment postLog

/-- The next block begins with the transactions that its digest imports. -/
theorem begins (holds : Consistent digests hashing blockHashCount state log)
    (here : state.phase = .sealed) (small : state.number + 1 < 2 ^ 32) {preLog : Option Block}
    {receipts : List BlockReceipt}
    (started : onInitialize gasometer runner digests recoverSigner state preLog =
      some (after, receipts)) :
    Consistent digests hashing blockHashCount after (log ++ receipts) := by
  simp only [onInitialize, Option.bind_eq_bind, Option.bind_eq_some_iff] at started
  obtain ⟨imported, included, rest⟩ := started
  obtain ⟨rfl, rfl⟩ := Prod.mk.inj (Option.some.inj rest)
  have aligned : Aligned digests { state.toBlockState with pending := [], events := [] } :=
    .fresh rfl rfl
  obtain ⟨keeps, pending⟩ := aligned.includeAll included
  have once := holds.once
  simp only [openTransactions, here, List.append_nil] at once
  have length := holds.chained.length
  simp only [nextNumber, here] at length
  constructor
  · exact keeps
  · exact fun unborn => nomatch unborn
  · rw [appliedTransactions_append, appliedTransactions_applied, storedBlocks_append,
      storedBlocks_applied, List.append_nil, once]
    exact congrArg _ pending.symm
  · intro block statuses receipts' postLog member
    rcases List.mem_append.mp member with earlier | mine
    · exact holds.faithful block statuses receipts' postLog earlier
    · simp at mine
  · exact holds.shown
  · rw [storedBlocks_append, storedBlocks_applied, List.append_nil]
    exact ⟨holds.chained.linked, holds.chained.current, holds.chained.numbered, length, small,
      (fun unborn => nomatch unborn), holds.chained.window⟩

/-- A transaction joins the block that is being built. -/
theorem transact (holds : Consistent digests hashing blockHashCount state log)
    (here : state.phase = .building false) {transaction : Transaction} {included : BlockState}
    (joins : includeTransaction gasometer runner digests recoverSigner state.toBlockState
      transaction = some included) :
    Consistent digests hashing blockHashCount { state with toBlockState := included }
      (log ++ [.applied transaction]) := by
  obtain ⟨keeps, pending⟩ := holds.aligned.includeOne joins
  have once := holds.once
  simp only [openTransactions, here] at once
  constructor
  · exact keeps
  · exact fun unborn => nomatch here.symm.trans unborn
  · rw [appliedTransactions_append, storedBlocks_append, once]
    simp only [openTransactions, here, pending, appliedTransactions, storedBlocks,
      List.filterMap_cons, List.filterMap_nil, List.append_nil, List.append_assoc]
  · intro block statuses receipts postLog member
    rcases List.mem_append.mp member with earlier | mine
    · exact holds.faithful block statuses receipts postLog earlier
    · exact nomatch List.mem_singleton.mp mine
  · exact holds.shown
  · rw [storedBlocks_append]
    simp only [storedBlocks, List.filterMap_cons, List.filterMap_nil, List.append_nil]
    exact ⟨holds.chained.linked, holds.chained.current, holds.chained.numbered,
      holds.chained.length, holds.chained.small, holds.chained.unborn, holds.chained.window⟩

/-- Every step of the chain keeps what storage knows. -/
theorem step (holds : Consistent digests hashing blockHashCount state log) {call : BlockCall}
    {receipts : List BlockReceipt}
    (taken : blockStep gasometer runner digests hashing recoverSigner blockHashCount state call =
      .ok (after, receipts)) :
    Consistent digests hashing blockHashCount after (log ++ receipts) := by
  cases call with
  | genesis environment =>
    cases here : state.phase with
    | unborn =>
      have zero := holds.chained.unborn here
      have sealed : after = sealedStorage digests hashing blockHashCount state environment false ∧
          receipts = [(storeBlock digests hashing state environment false
            (BitVec.ofNat 256 state.number)).2] := by
        simp only [blockStep, here, Except.ok.injEq, Prod.mk.injEq] at taken
        rw [sealedStorage, zero, pruneHashes_zero]
        exact ⟨taken.1.symm, taken.2.symm⟩
      rw [sealed.1, sealed.2]
      exact holds.store (by rw [here]; decide) environment false rfl
    | sealed => simp [blockStep, here] at taken
    | building preLog => simp [blockStep, here] at taken
  | onInitialize preLog =>
    cases here : state.phase with
    | unborn => simp [blockStep, here] at taken
    | sealed =>
      simp only [blockStep, here] at taken
      split_ifs at taken with small
      exact holds.begins here small (okOr_eq_ok.mp taken)
    | building preLog => simp [blockStep, here] at taken
  | transact transaction =>
    cases here : state.phase with
    | unborn => simp [blockStep, here] at taken
    | sealed => simp [blockStep, here] at taken
    | building preLog =>
      cases preLog with
      | true => simp [blockStep, here] at taken
      | false =>
        cases joins : includeTransaction gasometer runner digests recoverSigner state.toBlockState
            transaction with
        | none => simp [blockStep, here, joins] at taken
        | some included =>
          simp only [blockStep, here, joins, Except.ok.injEq, Prod.mk.injEq] at taken
          rw [← taken.1, ← taken.2]
          simpa only [here] using holds.transact here joins
  | onFinalize environment =>
    cases here : state.phase with
    | unborn => simp [blockStep, here] at taken
    | sealed => simp [blockStep, here] at taken
    | building preLog =>
      simp only [blockStep, here, onFinalize, Except.ok.injEq, Prod.mk.injEq] at taken
      rw [← taken.1, ← taken.2]
      exact holds.store (by rw [here]; exact fun same => nomatch same) environment (!preLog) rfl
  | outside chain =>
    simp only [blockStep, Except.ok.injEq, Prod.mk.injEq] at taken
    rw [← taken.1, ← taken.2, List.append_nil]
    exact ⟨⟨holds.aligned.belongs, holds.aligned.rising, holds.aligned.events⟩, holds.fresh,
      holds.once, holds.faithful, holds.shown, ⟨holds.chained.linked, holds.chained.current,
      holds.chained.numbered, holds.chained.length, holds.chained.small, holds.chained.unborn,
      holds.chained.window⟩⟩

theorem of_reachable
    (reached : BlocksReachable gasometer runner digests hashing recoverSigner blockHashCount
      state log) :
    Consistent digests hashing blockHashCount state log :=
  reached.invariant (Consistent digests hashing blockHashCount)
    (fun _ ⟨chain, begins⟩ => begins ▸ empty chain) fun holds _ taken => holds.step taken

end Consistent

/-! ## Blocks with a transfer -/

/-- Hashes that tell numbers and lengths apart. -/
def countingHashing : Hashing where
  header header := .replicate 32 (UInt8.ofNat (header.number.toNat + 1))
  ommers _ := default
  transactionsRoot transactions := .replicate 32 (UInt8.ofNat transactions.length)
  receiptsRoot receipts := .replicate 32 (UInt8.ofNat receipts.length)

/-- Digests under which every transaction has the default hash. -/
def plainDigests : Digests := ⟨fun _ => default, fun bloom _ => bloom, fun bloom _ => bloom⟩

/-- Blocks with the default author. -/
def plainEnvironment : Environment := ⟨default, default, 0⟩

/-- The chain over accounts without code that keeps two hashes. -/
def transferSystem : Machine Storage BlockCall BlockRefusal BlockReceipt :=
  blockSystem cloverEvmConfig.gasometer (codelessRunner fun _ _ => default) plainDigests
    countingHashing (fun _ => some default) 1

/-- A transfer in a block of its own, between genesis and an empty block. -/
def threeBlocks : List BlockCall :=
  [.genesis plainEnvironment, .onInitialize none, .transact transfer, .onFinalize plainEnvironment,
    .onInitialize none, .onFinalize plainEnvironment]

/-- A block with the transfer, to be imported. -/
def transferBlock : Block where
  header := (blockOf plainDigests countingHashing (.empty richChain) plainEnvironment 0).header
  transactions := [transfer]
  ommers := []

/-- A block that is being built over an imported transfer. -/
def openBlock : List BlockCall :=
  threeBlocks ++ [.outside richChain, .onInitialize (some transferBlock)]

theorem threeBlocks_happens :
    (transferSystem.replay (.empty richChain) threeBlocks).isOk = true := by
  decide +kernel

theorem openBlock_happens : (transferSystem.replay (.empty richChain) openBlock).isOk = true := by
  decide +kernel

/-- What a sequence of calls that happens leads to is reachable. -/
theorem transferSystem_reachable (calls : List BlockCall)
    (happens : (transferSystem.replay (.empty richChain) calls).isOk = true) :
    BlocksReachable cloverEvmConfig.gasometer (codelessRunner fun _ _ => default) plainDigests
      countingHashing (fun _ => some default) 1
      (transferSystem.outcome (.empty richChain) calls).1
      (transferSystem.outcome (.empty richChain) calls).2 :=
  Machine.outcome_reachable ⟨richChain, rfl⟩ (fun _ _ => trivial) happens

/-! ## Blocks in every run -/

/-- Stored blocks are numbered from zero and linked by their hashes, the current one is the last,
and the table of hashes holds genesis and the latest ones. -/
theorem blocks_chained {state : Storage} {log : List BlockReceipt}
    (reached : BlocksReachable gasometer runner digests hashing recoverSigner blockHashCount
      state log) :
    Chained hashing blockHashCount state (storedBlocks log) :=
  (Consistent.of_reachable reached).chained

theorem threeBlocks_chained :
    (storedBlocks (transferSystem.outcome (.empty richChain) threeBlocks).2).length = 3 ∧
      Chained countingHashing 1 (transferSystem.outcome (.empty richChain) threeBlocks).1
        (storedBlocks (transferSystem.outcome (.empty richChain) threeBlocks).2) :=
  ⟨by decide +kernel, blocks_chained (transferSystem_reachable threeBlocks threeBlocks_happens)⟩

/-- Every transaction that was applied is in the block that was open then or still is, once and in
order, and blocks have no others. -/
theorem transactions_stored_once {state : Storage} {log : List BlockReceipt}
    (reached : BlocksReachable gasometer runner digests hashing recoverSigner blockHashCount
      state log) :
    appliedTransactions log =
      (storedBlocks log).flatMap (·.transactions) ++ openTransactions state :=
  (Consistent.of_reachable reached).once

theorem openBlock_stored_once :
    appliedTransactions (transferSystem.outcome (.empty richChain) openBlock).2 =
        [transfer, transfer] ∧
      appliedTransactions (transferSystem.outcome (.empty richChain) openBlock).2 =
        (storedBlocks (transferSystem.outcome (.empty richChain) openBlock).2).flatMap
          (·.transactions) ++
        openTransactions (transferSystem.outcome (.empty richChain) openBlock).1 :=
  ⟨by decide +kernel,
    transactions_stored_once (transferSystem_reachable openBlock openBlock_happens)⟩

/-- Every stored block, and the current one with what storage shows of it, has a status and a
receipt for each of its transactions, and its header sums them up. -/
theorem blocks_faithful {state : Storage} {log : List BlockReceipt}
    (reached : BlocksReachable gasometer runner digests hashing recoverSigner blockHashCount
      state log) :
    (∀ block statuses receipts postLog, .stored block statuses receipts postLog ∈ log →
      Faithful digests hashing block statuses receipts) ∧
    ∀ block, state.currentBlock = some block → ∃ statuses receipts,
      state.currentTransactionStatuses = some statuses ∧ state.currentReceipts = some receipts ∧
        Faithful digests hashing block statuses receipts :=
  ⟨(Consistent.of_reachable reached).faithful, (Consistent.of_reachable reached).shown⟩

theorem threeBlocks_faithful : ∃ block statuses receipts postLog,
    BlockReceipt.stored block statuses receipts postLog ∈
        (transferSystem.outcome (.empty richChain) threeBlocks).2 ∧
      block.transactions = [transfer] ∧
      Faithful plainDigests countingHashing block statuses receipts := by
  have second : ((transferSystem.outcome (.empty richChain) threeBlocks).2[2]?.map fun receipt =>
      match receipt with
      | .stored block _ _ _ => block.transactions
      | .applied _ => []) = some [transfer] := by
    decide +kernel
  obtain ⟨receipt, present, holds⟩ := Option.map_eq_some_iff.mp second
  cases receipt with
  | applied transaction => exact absurd holds (List.cons_ne_nil _ _).symm
  | stored block statuses receipts postLog =>
    have member := List.mem_of_getElem? present
    exact ⟨block, statuses, receipts, postLog, member, holds,
      (blocks_faithful (transferSystem_reachable threeBlocks threeBlocks_happens)).1 _ _ _ _ member⟩

/-- The transactions of a faithful block are those of its header. -/
theorem Faithful.eq_of_header {first second : Block} {statuses statuses' : List TransactionStatus}
    {receipts receipts' : List Receipt}
    (left : Faithful digests hashing first statuses receipts)
    (right : Faithful digests hashing second statuses' receipts')
    (apart : hashing.transactionsRoot first.transactions =
      hashing.transactionsRoot second.transactions → first.transactions = second.transactions)
    (header : first.header = second.header) : first = second := by
  have transactions : first.transactions = second.transactions := by
    apply apart
    rw [← left.transactionsRoot, ← right.transactionsRoot, header]
  have ommers : first.ommers = second.ommers := left.ommers.trans right.ommers.symm
  cases first
  cases second
  simp_all only

/-- Every block of a run is faithful to something. -/
theorem Consistent.faithful_block {state : Storage} {log : List BlockReceipt}
    (holds : Consistent digests hashing blockHashCount state log) {block : Block}
    (member : block ∈ storedBlocks log) :
    ∃ statuses receipts, Faithful digests hashing block statuses receipts := by
  obtain ⟨receipt, inside, found⟩ := List.mem_filterMap.mp member
  cases receipt with
  | applied transaction => exact nomatch found
  | stored here statuses receipts postLog =>
    obtain rfl := Option.some.inj found
    exact ⟨statuses, receipts, holds.faithful _ _ _ _ inside⟩

theorem Chained.small_length {state : Storage} {blocks : List Block}
    (chained : Chained hashing blockHashCount state blocks) : blocks.length ≤ 2 ^ 32 := by
  have small := chained.small
  rw [chained.length, nextNumber]
  split <;> omega

/-- Chains with one current hash have the same number of blocks: the header has the number. -/
theorem Chained.length_eq {first second : Storage} {blocks others : List Block}
    (left : Chained hashing blockHashCount first blocks)
    (right : Chained hashing blockHashCount second others)
    (same : currentBlockHash hashing first = currentBlockHash hashing second)
    (apart : ∀ one ∈ blocks, ∀ other ∈ others,
      hashing.header one.header = hashing.header other.header → one.header = other.header) :
    blocks.length = others.length := by
  unfold currentBlockHash at same
  rw [left.current, right.current] at same
  rcases List.eq_nil_or_concat' blocks with rfl | ⟨front, tip, rfl⟩
  · rcases List.eq_nil_or_concat' others with rfl | ⟨rear, bottom, rfl⟩
    · rfl
    · simp at same
  · rcases List.eq_nil_or_concat' others with rfl | ⟨rear, bottom, rfl⟩
    · simp at same
    · have hashes : hashing.header tip.header = hashing.header bottom.header := by simpa using same
      have headers := apart tip (by simp) bottom (by simp) hashes
      have mine := left.numbered front.length tip (by simp)
      have theirs := right.numbered rear.length bottom (by simp)
      have before := left.small_length
      have after := right.small_length
      rw [List.length_append, List.length_singleton] at before after
      have keys := mine.symm.trans ((congrArg Header.number headers).trans theirs)
      have fronts := (numberKey_inj (by omega) (by omega)).mp keys
      rw [List.length_append, List.length_append, fronts]
      rfl

/-- The hash of the current block commits to the chain: where no two headers share a hash and no
two lists of transactions a root, it tells every block with its transactions. -/
theorem blocks_committed {first second : Storage} {log log' : List BlockReceipt}
    (left : BlocksReachable gasometer runner digests hashing recoverSigner blockHashCount
      first log)
    (right : BlocksReachable gasometer runner digests hashing recoverSigner blockHashCount
      second log')
    (headers : ∀ one ∈ storedBlocks log, ∀ other ∈ storedBlocks log',
      hashing.header one.header = hashing.header other.header → one.header = other.header)
    (roots : ∀ one ∈ storedBlocks log, ∀ other ∈ storedBlocks log',
      hashing.transactionsRoot one.transactions = hashing.transactionsRoot other.transactions →
        one.transactions = other.transactions)
    (same : currentBlockHash hashing first = currentBlockHash hashing second) :
    storedBlocks log = storedBlocks log' := by
  have mine := Consistent.of_reachable left
  have theirs := Consistent.of_reachable right
  have length := mine.chained.length_eq theirs.chained same headers
  have linked : (storedBlocks log).map (·.header) = (storedBlocks log').map (·.header) := by
    refine mine.chained.linked.eq_of_last_hash theirs.chained.linked (by simpa using length) ?_ ?_
    · unfold currentBlockHash at same
      rw [mine.chained.current, theirs.chained.current] at same
      rw [List.getLast?_map, List.getLast?_map, Option.map_map, Option.map_map]
      exact same
    · intro header inside header' member
      obtain ⟨one, here, rfl⟩ := List.mem_map.mp inside
      obtain ⟨other, there, rfl⟩ := List.mem_map.mp member
      exact headers one here other there
  refine List.ext_getElem length fun index before after => ?_
  have here := List.getElem_mem before
  have there := List.getElem_mem after
  obtain ⟨_, _, faithful⟩ := mine.faithful_block here
  obtain ⟨_, _, faithful'⟩ := theirs.faithful_block there
  refine faithful.eq_of_header faithful' (roots _ here _ there) ?_
  have entry := congrArg (·[index]?) linked
  simpa [List.getElem?_eq_getElem before, List.getElem?_eq_getElem after] using entry

/-- A node that went on to build a block has the same chain. -/
theorem openBlock_committed :
    storedBlocks (transferSystem.outcome (.empty richChain) threeBlocks).2 =
      storedBlocks (transferSystem.outcome (.empty richChain) openBlock).2 :=
  blocks_committed (transferSystem_reachable threeBlocks threeBlocks_happens)
    (transferSystem_reachable openBlock openBlock_happens) (by decide +kernel) (by decide +kernel)
    (by decide +kernel)

/-! ## Imported blocks -/

/-- While a block is imported, nothing joins its transactions. -/
structure Importing (transactions : List Transaction) (state : Storage) (log : List BlockReceipt) :
    Prop where
  phase : state.phase = .building true
  pending : state.pending.map (·.1) = transactions
  nothing : log = []

theorem Importing.step {transactions : List Transaction} {state after : Storage}
    {log receipts : List BlockReceipt} (importing : Importing transactions state log)
    {call : BlockCall} (unfinished : ∀ environment, call ≠ .onFinalize environment)
    (taken : blockStep gasometer runner digests hashing recoverSigner blockHashCount state call =
      .ok (after, receipts)) : Importing transactions after (log ++ receipts) := by
  have here := importing.phase
  cases call with
  | genesis environment => simp [blockStep, here] at taken
  | onInitialize preLog => simp [blockStep, here] at taken
  | transact transaction => simp [blockStep, here] at taken
  | onFinalize environment => exact absurd rfl (unfinished environment)
  | outside chain =>
    simp only [blockStep, Except.ok.injEq, Prod.mk.injEq] at taken
    rw [← taken.1, ← taken.2, List.append_nil]
    exact ⟨here, importing.pending, importing.nothing⟩

/-- A block that imports another has exactly its transactions, and no digest says so again. -/
theorem imported_exactly {state begun middle after : Storage} {block : Block}
    {opened out stored : List BlockReceipt} {environment : Environment}
    (opens : blockStep gasometer runner digests hashing recoverSigner blockHashCount state
      (.onInitialize (some block)) = .ok (begun, opened))
    (run : (blockSystem gasometer runner digests hashing recoverSigner blockHashCount).Run
      (fun call => ∀ environment, call ≠ .onFinalize environment) begun out middle)
    (ends : blockStep gasometer runner digests hashing recoverSigner blockHashCount middle
      (.onFinalize environment) = .ok (after, stored)) :
    out = [] ∧ ∃ current statuses receipts, after.currentBlock = some current ∧
      stored = [.stored current statuses receipts none] ∧
      current.transactions = block.transactions := by
  have start : Importing block.transactions begun [] := by
    cases here : state.phase with
    | unborn => simp [blockStep, here] at opens
    | building preLog => simp [blockStep, here] at opens
    | sealed =>
      simp only [blockStep, here] at opens
      split_ifs at opens
      have started := okOr_eq_ok.mp opens
      simp only [onInitialize, Option.bind_eq_bind, Option.bind_eq_some_iff] at started
      obtain ⟨imported, included, rest⟩ := started
      obtain ⟨rfl, -⟩ := Prod.mk.inj (Option.some.inj rest)
      have aligned : Aligned digests { state.toBlockState with pending := [], events := [] } :=
        .fresh rfl rfl
      exact ⟨rfl, (aligned.includeAll included).2, rfl⟩
  have importing := run.preserves (Importing block.transactions) start fun holds permitted taken =>
    holds.step permitted taken
  simp only [blockStep, importing.phase, onFinalize, Except.ok.injEq, Prod.mk.injEq] at ends
  obtain ⟨rfl, rfl⟩ := ends
  refine ⟨importing.nothing, blockOf digests hashing middle environment
    (BitVec.ofNat 256 middle.number), _, _, ?_, rfl, ?_⟩
  · exact congrArg Storage.currentBlock (sealedStorage_eq middle environment false)
  · rw [← importing.pending, blockOf, collect_eq]

/-- Storage with no block open and every account rich. -/
def richStorage : Storage := { Storage.empty richChain with phase := .sealed }

/-- The transfer is imported, and stored as it is. -/
theorem openBlock_exactly : ∃ begun opened after stored,
    transferSystem.step richStorage (.onInitialize (some transferBlock)) = .ok (begun, opened) ∧
      transferSystem.step begun (.onFinalize plainEnvironment) = .ok (after, stored) ∧
      after.currentBlock.map (·.transactions) = some [transfer] := by
  have happens : (transferSystem.replay richStorage
      [.onInitialize (some transferBlock), .onFinalize plainEnvironment]).isOk = true := by
    decide +kernel
  simp only [Machine.replay] at happens
  split at happens
  · contradiction
  · next begun opened opens =>
    split at happens
    · contradiction
    · next rest more replayed =>
      split at replayed
      · contradiction
      · next after stored ends =>
        obtain ⟨-, current, _, _, shown, -, same⟩ :=
          @imported_exactly _ cloverEvmConfig.gasometer (codelessRunner fun _ _ => default)
            plainDigests countingHashing (fun _ => some default) 1 richStorage begun begun after
            transferBlock opened [] stored plainEnvironment opens (.nil begun) ends
        exact ⟨begun, opened, after, stored, opens, ends, by rw [shown, Option.map_some, same]; rfl⟩

end GlitchRuntime.Ethereum

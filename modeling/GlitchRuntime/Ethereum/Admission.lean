import GlitchRuntime.Ethereum.Execution

/-! # Validated transactions execute

Validation bounds a saturating total by a balance, execution splits the fee in two; both are the
same exact amount once the balance is far below the largest word. So the runner's conditions hold
of every validated transaction, and a block can only panic at one that validation refuses.
-/

namespace GlitchRuntime.Ethereum

open Lib Lib.Word

/-- What a transaction pays for a unit of gas, as an exact number. -/
def Transaction.rate : Transaction → ℕ
  | legacy t => t.gasPrice.toNat
  | eip2930 t => t.gasPrice.toNat
  | eip1559 t => t.maxFeePerGas.toNat + t.maxPriorityFeePerGas.toNat

/-- The fee and nonce conditions of the runner. -/
structure Admissible (chain : Chain) (args : RunnerInput) (maxFee maxPriorityFee : U256) :
    Prop where
  maxFeeGiven : args.maxFeePerGas = some maxFee
  maxPriorityFeeGiven : args.maxPriorityFeePerGas = some maxPriorityFee
  priced : minGasPrice ≤ maxFee
  rateFits : maxFee.toNat + maxPriorityFee.toNat < 2 ^ 256
  paymentFits :
    (maxFee.toNat + maxPriorityFee.toNat) * args.gasLimit.toNat + args.value.toNat < 2 ^ 256
  affordable : (maxFee.toNat + maxPriorityFee.toNat) * args.gasLimit.toNat + args.value.toNat ≤
    (chain.accountBasic args.source).balance.toNat
  nonceMatches : args.nonce = some (chain.accountBasic args.source).nonce

/-- The runner refuses only inputs that break one of its conditions. -/
def Runner.Complete (runner : Runner) : Prop :=
  ∀ chain args maxFee maxPriorityFee, Admissible chain args maxFee maxPriorityFee →
    (∀ target, ∃ done, runner.call chain target args = .ok done) ∧
      ∃ done, runner.create chain args = .ok done

/-- No transaction has its bytes paid by an empty gas limit. -/
def Gasometer.Charges {Cost : Type} (gasometer : Gasometer Cost) : Prop :=
  ∀ data, gasometer.recordTransaction 0 (transactionCost gasometer data) = false

/-- The balances of a chain fit 128 bits. -/
def Chain.Bounded (chain : Chain) : Prop :=
  ∀ address, (chain.accountBasic address).balance.toNat < 2 ^ 128

/-- A payable fee below the largest word is the exact product of rate and gas limit. -/
theorem payableFee_toNat {t : Transaction} (small : t.payableFee.toNat < 2 ^ 256 - 1) :
    t.payableFee.toNat = t.rate * t.gasLimit.toNat := by
  cases t with
  | legacy t => exact toNat_saturatingMul_of_lt small
  | eip2930 t => exact toNat_saturatingMul_of_lt small
  | eip1559 t =>
    have sum := toNat_saturatingAdd_of_lt small
    have both := small
    simp only [Transaction.payableFee] at sum both
    rw [sum] at both
    have base : (saturatingMul t.maxFeePerGas t.gasLimit).toNat < 2 ^ 256 - 1 := by omega
    have tip : (saturatingMul t.maxPriorityFeePerGas t.gasLimit).toNat < 2 ^ 256 - 1 := by omega
    simp only [Transaction.payableFee, Transaction.rate, Transaction.gasLimit]
    rw [sum, toNat_saturatingMul_of_lt base, toNat_saturatingMul_of_lt tip, Nat.add_mul]

/-- From the base fee up every transaction has arguments for the runner, and their two fees add up
to its rate. -/
theorem runnerInput_of_covered {t : Transaction} (source : H160)
    (covered : minGasPrice ≤ t.feeCap) :
    ∃ maxFee maxPriorityFee : U256,
      runnerInput source t = .ok {
        source := source
        input := t.input
        value := t.value
        gasLimit := saturateTo 64 t.gasLimit
        maxFeePerGas := some maxFee
        maxPriorityFeePerGas := some maxPriorityFee
        nonce := some t.nonce
        accessList := (transactionData t).accessList } ∧
      minGasPrice ≤ maxFee ∧ maxFee.toNat + maxPriorityFee.toNat = t.rate := by
  have split (gasPrice : U256) (enough : minGasPrice ≤ gasPrice) :
      minGasPrice.toNat + (gasPrice - minGasPrice).toNat = gasPrice.toNat := by
    rw [BitVec.toNat_sub_of_le enough]
    rw [BitVec.le_def] at enough
    omega
  cases t with
  | legacy t =>
    have enough : minGasPrice ≤ t.gasPrice := covered
    refine ⟨minGasPrice, t.gasPrice - minGasPrice, ?_, BitVec.le_refl _, split _ enough⟩
    simp only [runnerInput, checkedSub_of_le enough]
    rfl
  | eip2930 t =>
    have enough : minGasPrice ≤ t.gasPrice := covered
    refine ⟨minGasPrice, t.gasPrice - minGasPrice, ?_, BitVec.le_refl _, split _ enough⟩
    simp only [runnerInput, checkedSub_of_le enough]
    rfl
  | eip1559 t => exact ⟨t.maxFeePerGas, t.maxPriorityFeePerGas, rfl, covered, rfl⟩

variable {Cost : Type} {gasometer : Gasometer Cost} {runner : Runner} {digests : Digests}
  {chain : Chain} {source : H160} {t : Transaction}

/-- An acceptable transaction has gas to spend. -/
theorem Acceptable.gasLimit_pos (charges : gasometer.Charges)
    (acceptable : Acceptable gasometer chain source t) : 0 < t.gasLimit.toNat := by
  by_contra empty
  have zero : saturateTo 64 t.gasLimit = 0 := by
    apply BitVec.eq_of_toNat_eq
    rw [toNat_saturateTo]
    change min t.gasLimit.toNat _ = 0
    omega
  have paid := acceptable.bytesPaid
  rw [zero, charges] at paid
  contradiction

/-- Under balances of 128 bits the payment of an acceptable transaction is exact and covered. -/
theorem Acceptable.payment_le (bounded : chain.Bounded)
    (acceptable : Acceptable gasometer chain source t) :
    t.rate * t.gasLimit.toNat + t.value.toNat ≤ (chain.accountBasic source).balance.toNat := by
  have affordable : (saturatingAdd t.value t.payableFee).toNat ≤
      (chain.accountBasic source).balance.toNat := acceptable.affordable
  have balance := bounded source
  have small : (saturatingAdd t.value t.payableFee).toNat < 2 ^ 256 - 1 := by omega
  have total := toNat_saturatingAdd_of_lt small
  have smallFee : t.payableFee.toNat < 2 ^ 256 - 1 := by omega
  have fee := payableFee_toNat smallFee
  omega

/-- A transaction valid in a block gives the runner arguments that pass its conditions, with the
gas limit unchanged. -/
theorem runnerInput_admissible (charges : gasometer.Charges) (bounded : chain.Bounded)
    (valid : validateTransactionInBlock gasometer chain source t = .ok ()) :
    ∃ args maxFee maxPriorityFee, runnerInput source t = .ok args ∧
      args.gasLimit.toNat = t.gasLimit.toNat ∧
      Admissible chain args maxFee maxPriorityFee := by
  obtain ⟨acceptable, sameNonce⟩ := validateTransactionInBlock_eq_ok.mp valid
  obtain ⟨maxFee, maxPriorityFee, computed, priced, rate⟩ :=
    runnerInput_of_covered source acceptable.feeCovered
  have gas := acceptable.gasLimit_pos charges
  have payment := acceptable.payment_le bounded
  have balance := bounded source
  have limit : t.gasLimit.toNat < 4294967295 := acceptable.gasBounded
  have narrowed : (saturateTo 64 t.gasLimit).toNat = t.gasLimit.toNat :=
    setWidth_saturateTo (by omega)
  have single : t.rate ≤ t.rate * t.gasLimit.toNat := Nat.le_mul_of_pos_right _ gas
  refine ⟨_, maxFee, maxPriorityFee, computed, narrowed, ?_⟩
  constructor
  case maxFeeGiven => rfl
  case maxPriorityFeeGiven => rfl
  case priced => exact priced
  case rateFits => omega
  case paymentFits =>
    simp only [narrowed, rate]
    omega
  case affordable =>
    simp only [narrowed, rate]
    exact payment
  case nonceMatches => simp only [sameNonce]

/-- A complete runner executes admissible arguments. -/
theorem execute_of_admissible (complete : runner.Complete) {args : RunnerInput}
    {maxFee maxPriorityFee : U256} (computed : runnerInput source t = .ok args)
    (admissible : Admissible chain args maxFee maxPriorityFee) :
    ∃ done, execute runner chain source t = .ok done := by
  obtain ⟨calls, creates⟩ := complete _ _ _ _ admissible
  cases action : t.action with
  | call target =>
    obtain ⟨⟨info, next⟩, called⟩ := calls target
    refine ⟨((some target, none, .call info), next), ?_⟩
    simp [execute, computed, action, called, Except.mapError]
  | create =>
    obtain ⟨⟨info, next⟩, created⟩ := creates
    refine ⟨((none, some info.value, .create info), next), ?_⟩
    simp [execute, computed, action, created, Except.mapError]

/-- The pallet panics on a transaction exactly when its execution is an error. -/
theorem applyValidatedTransaction_eq_none {state : BlockState} :
    applyValidatedTransaction runner digests state source t = none ↔
      ∃ problem, execute runner state.chain source t = .error problem := by
  cases executed : execute runner state.chain source t with
  | error problem => simp [applyValidatedTransaction, executed, Except.toOption]
  | ok done => simp [applyValidatedTransaction, executed, Except.toOption]

/-- Admissible arguments never make the pallet panic. -/
theorem applyValidatedTransaction_ne_none (complete : runner.Complete) {state : BlockState}
    {args : RunnerInput} {maxFee maxPriorityFee : U256}
    (computed : runnerInput source t = .ok args)
    (admissible : Admissible state.chain args maxFee maxPriorityFee) :
    applyValidatedTransaction runner digests state source t ≠ none := by
  obtain ⟨done, executed⟩ := execute_of_admissible complete computed admissible
  rw [Ne, applyValidatedTransaction_eq_none]
  rintro ⟨problem, failed⟩
  rw [executed] at failed
  contradiction

/-- A called transaction is the runner's call with the arguments computed for it. -/
theorem execute_of_call {args : RunnerInput} (computed : runnerInput source t = .ok args)
    {target : H160} (action : t.action = .call target) :
    execute runner chain source t =
      ((runner.call chain target args).mapError .runner).map fun done =>
        ((some target, none, .call done.1), done.2) := by
  simp only [execute, computed, action, ok_bind]
  cases runner.call chain target args <;> rfl

/-- A creating transaction is the runner's creation with the arguments computed for it. -/
theorem execute_of_create {args : RunnerInput} (computed : runnerInput source t = .ok args)
    (action : t.action = .create) :
    execute runner chain source t =
      ((runner.create chain args).mapError .runner).map fun done =>
        ((none, some done.1.value, .create done.1), done.2) := by
  simp only [execute, computed, action, ok_bind]
  cases runner.create chain args <;> rfl

/-- The arguments are those of the source and of the transaction. -/
theorem runnerInput_fields {args : RunnerInput} (computed : runnerInput source t = .ok args) :
    args.source = source ∧ args.input = t.input ∧ args.value = t.value ∧
      args.nonce = some t.nonce := by
  cases t with
  | legacy t =>
    simp only [runnerInput, bind_eq_ok, okOr_eq_ok, pure_eq_ok] at computed
    obtain ⟨_, -, rfl⟩ := computed
    exact ⟨rfl, rfl, rfl, rfl⟩
  | eip2930 t =>
    simp only [runnerInput, bind_eq_ok, okOr_eq_ok, pure_eq_ok] at computed
    obtain ⟨_, -, rfl⟩ := computed
    exact ⟨rfl, rfl, rfl, rfl⟩
  | eip1559 t =>
    obtain rfl := Except.ok.inj computed
    exact ⟨rfl, rfl, rfl, rfl⟩

/-- A transaction valid in a block has arguments that pass every condition of the runner, with the
gas limit unchanged. Its execution is the runner's on these very arguments, and applying it does not
panic. -/
theorem validated_never_panics (complete : runner.Complete) (charges : gasometer.Charges)
    {state : BlockState} (bounded : state.chain.Bounded)
    (valid : validateTransactionInBlock gasometer state.chain source t = .ok ()) :
    ∃ args maxFee maxPriorityFee, runnerInput source t = .ok args ∧
      (args.source = source ∧ args.input = t.input ∧ args.value = t.value ∧
        args.nonce = some t.nonce) ∧
      args.gasLimit.toNat = t.gasLimit.toNat ∧
      Admissible state.chain args maxFee maxPriorityFee ∧
      (∀ target, t.action = .call target → execute runner state.chain source t =
        ((runner.call state.chain target args).mapError .runner).map fun done =>
          ((some target, none, .call done.1), done.2)) ∧
      (t.action = .create → execute runner state.chain source t =
        ((runner.create state.chain args).mapError .runner).map fun done =>
          ((none, some done.1.value, .create done.1), done.2)) ∧
      applyValidatedTransaction runner digests state source t ≠ none := by
  obtain ⟨args, maxFee, maxPriorityFee, computed, narrowed, admissible⟩ :=
    runnerInput_admissible charges bounded valid
  exact ⟨args, maxFee, maxPriorityFee, computed, runnerInput_fields computed, narrowed, admissible,
    fun _ action => execute_of_call computed action, execute_of_create computed,
    applyValidatedTransaction_ne_none complete computed admissible⟩

/-! ## A value transfer -/

theorem codelessRunner_complete (createAddress : H160 → U256 → H160) :
    (codelessRunner createAddress).Complete := by
  intro chain args maxFee maxPriorityFee admissible
  have charged (usedGas : ℕ) : ∃ next, chargeSource chain args usedGas = .ok next := by
    have fee : (maxFee.toNat + maxPriorityFee.toNat) * args.gasLimit.toNat < 2 ^ 256 := by
      have fits := admissible.paymentFits
      omega
    have nonce : args.nonce.all (· = (chain.accountBasic args.source).nonce) = true := by
      rw [admissible.nonceMatches]
      simp
    simp only [chargeSource, bind_eq_ok, okOr_eq_ok, ensure_eq_ok, pure_eq_ok,
      admissible.maxPriorityFeeGiven, Option.getD_some]
    exact ⟨_, maxFee, admissible.maxFeeGiven, (), admissible.priced, (), fee, (),
      admissible.paymentFits, (), admissible.affordable, (), nonce, rfl⟩
  constructor
  · intro target
    obtain ⟨next, paid⟩ :=
      charged (cloverEvmConfig.gasometer.callTransactionCost args.input args.accessList)
    exact ⟨_, by simp only [codelessRunner, paid]; rfl⟩
  · obtain ⟨next, paid⟩ :=
      charged (cloverEvmConfig.gasometer.createTransactionCost args.input args.accessList)
    exact ⟨_, by simp only [codelessRunner, paid]; rfl⟩

theorem cloverGasometer_charges : cloverEvmConfig.gasometer.Charges := by
  intro data
  unfold transactionCost
  split <;> simp [EvmConfig.gasometer, cloverEvmConfig]

theorem richChain_bounded : richChain.Bounded := by
  intro address
  change (10 ^ 30 : U256).toNat < 2 ^ 128
  decide

/-- A transfer that pays twice the base fee and a tip. -/
def transfer : Transaction :=
  .eip1559 {
    chainId := glitchTestnetChainId
    nonce := 0
    maxPriorityFeePerGas := 1000000000
    maxFeePerGas := 20000000000
    gasLimit := 21000
    action := .call (.replicate 20 7)
    value := 5
    input := []
    accessList := [] }

/-- A chain with no block begun. -/
def freshBlock : BlockState := ⟨richChain, [], []⟩

/-- The transfer reaches the runner with its gas and its fees, and is applied. -/
theorem transfer_never_panics :
    ∃ args maxFee maxPriorityFee, args.gasLimit = 21000 ∧
      Admissible freshBlock.chain args maxFee maxPriorityFee ∧
      (execute (codelessRunner fun _ _ => default) freshBlock.chain default transfer =
        (((codelessRunner fun _ _ => default).call freshBlock.chain (.replicate 20 7)
          args).mapError .runner).map fun done =>
            ((some (.replicate 20 7), none, .call done.1), done.2)) ∧
      applyValidatedTransaction (codelessRunner fun _ _ => default)
        ⟨fun _ => default, fun bloom _ => bloom, fun bloom _ => bloom⟩ freshBlock default transfer ≠
          none := by
  have valid :
      validateTransactionInBlock cloverEvmConfig.gasometer freshBlock.chain default transfer =
        .ok () := by
    decide +kernel
  obtain ⟨args, maxFee, maxPriorityFee, -, -, narrowed, admissible, calls, -, applied⟩ :=
    validated_never_panics (codelessRunner_complete _) cloverGasometer_charges
      richChain_bounded valid
  exact ⟨args, maxFee, maxPriorityFee, BitVec.eq_of_toNat_eq narrowed, admissible,
    calls _ rfl, applied⟩

/-! ## Imported blocks -/

/-- A runner under which balances stay within 128 bits. -/
def Runner.KeepsBounded (runner : Runner) : Prop :=
  ∀ chain args next, chain.Bounded →
    (∀ target info, runner.call chain target args = .ok (info, next) → next.Bounded) ∧
      ∀ info, runner.create chain args = .ok (info, next) → next.Bounded

theorem execute_bounded (keeps : runner.KeepsBounded) {next : Chain}
    {info : Option H160 × Option H160 × CallOrCreateInfo} (bounded : chain.Bounded)
    (executed : execute runner chain source t = .ok (info, next)) : next.Bounded := by
  simp only [execute, bind_eq_ok] at executed
  obtain ⟨args, -, ran⟩ := executed
  obtain ⟨calls, creates⟩ := keeps chain args next bounded
  cases action : t.action with
  | call target =>
    cases called : runner.call chain target args with
    | error problem => simp [action, called, Except.mapError] at ran
    | ok done =>
      simp only [action, Except.mapError, called, bind_pure_comp, Except.map_ok, Except.ok.injEq,
        Prod.mk.injEq] at ran
      exact calls target done.1 (by rw [called, ← ran.2])
  | create =>
    cases created : runner.create chain args with
    | error problem => simp [action, created, Except.mapError] at ran
    | ok done =>
      simp only [action, Except.mapError, created, bind_pure_comp, Except.map_ok, Except.ok.injEq,
        Prod.mk.injEq] at ran
      exact creates done.1 (by rw [created, ← ran.2])

theorem applyValidatedTransaction_bounded (keeps : runner.KeepsBounded)
    {state next : BlockState} {info : PostDispatchInfo} (bounded : state.chain.Bounded)
    (applied : applyValidatedTransaction runner digests state source t = some (next, info)) :
    next.chain.Bounded := by
  cases executed : execute runner state.chain source t with
  | error problem => simp [applyValidatedTransaction, executed, Except.toOption] at applied
  | ok done =>
    have kept := execute_bounded keeps bounded executed
    simp only [applyValidatedTransaction, Except.toOption, executed, Option.bind_eq_bind,
      Option.bind_some, Option.some.injEq, Prod.mk.injEq] at applied
    rw [← applied.1]
    exact kept

/-- Transactions are imported one after the other. -/
theorem importTransactions_append {state : BlockState} {before after : List (H160 × Transaction)} :
    importTransactions gasometer runner digests state (before ++ after) =
      (importTransactions gasometer runner digests state before).bind fun reached =>
        importTransactions gasometer runner digests reached after := by
  induction before generalizing state with
  | nil => rfl
  | cons first rest ih =>
    simp only [List.cons_append, importTransactions, Option.bind_eq_bind, Option.bind_assoc, ih]

/-- Importing a block panics exactly when it meets a transaction that validation refuses in the
state reached by those before it. -/
theorem importTransactions_eq_none (complete : runner.Complete) (charges : gasometer.Charges)
    (keeps : runner.KeepsBounded) {state : BlockState} (bounded : state.chain.Bounded)
    {transactions : List (H160 × Transaction)} :
    importTransactions gasometer runner digests state transactions = none ↔
      ∃ before source t after reached problem, transactions = before ++ (source, t) :: after ∧
        importTransactions gasometer runner digests state before = some reached ∧
        validateTransactionInBlock gasometer reached.chain source t = .error problem := by
  constructor
  · intro panics
    induction transactions generalizing state with
    | nil => simp [importTransactions] at panics
    | cons first rest ih =>
      obtain ⟨source, t⟩ := first
      cases validated : validateTransactionInBlock gasometer state.chain source t with
      | error problem => exact ⟨[], source, t, rest, state, problem, rfl, rfl, validated⟩
      | ok done =>
        obtain ⟨args, _, _, computed, -, admissible⟩ :=
          runnerInput_admissible charges bounded validated
        have alive : applyValidatedTransaction runner digests state source t ≠ none :=
          applyValidatedTransaction_ne_none complete computed admissible
        obtain ⟨⟨next, info⟩, applied⟩ := Option.ne_none_iff_exists'.mp alive
        have step (later : List (H160 × Transaction)) :
            importTransactions gasometer runner digests state ((source, t) :: later) =
              importTransactions gasometer runner digests next later := by
          simp [importTransactions, validated, applied, Except.toOption]
        rw [step] at panics
        obtain ⟨before, source', t', after, reached, problem, rfl, imported, refused⟩ :=
          ih (applyValidatedTransaction_bounded keeps bounded applied) panics
        exact ⟨(source, t) :: before, source', t', after, reached, problem, rfl,
          (step before).trans imported, refused⟩
  · rintro ⟨before, source, t, after, reached, problem, rfl, imported, refused⟩
    simp [importTransactions_append, imported, importTransactions, refused, Except.toOption]

end GlitchRuntime.Ethereum

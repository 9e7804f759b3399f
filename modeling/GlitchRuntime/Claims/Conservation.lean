import GlitchRuntime.Claims.LifeCycle

/-! # Value across the bridge

The issuance should move by what claims are paid, by the fees for minting and by what burns report,
and every credit should reach its account. The pallet never looks at what a deposit credited, so
this holds as long as every deposit lands and the issuance has room for it: a credit below the
minimum to a dead account is lost.
-/

namespace GlitchRuntime.Claims

open Lib

variable {Account : Type} [DecidableEq Account] {config : Config Account}

/-! ## What the receipts add up to -/

/-- What a step credits, by its receipts: payments to their accounts, fees to the pallet's. -/
def creditsOf (config : Config Account) : Receipt Account → List (Credit Account)
  | .payment payment => [⟨payment.dest, payment.amount⟩]
  | .mintFee fee => [⟨config.accountId, fee⟩]
  | .burn _ _ fee => [⟨config.accountId, fee⟩]
  | .event _ => []

/-- What a step takes, by its receipts. -/
def debitsOf : Receipt Account → List (Credit Account)
  | .burn who amount _ => [⟨who, amount⟩]
  | .payment _ | .mintFee _ | .event _ => []

/-- The fees charged for minting. -/
def mintFeeOf : Receipt Account → ℕ
  | .mintFee fee => fee
  | .payment _ | .burn _ _ _ | .event _ => 0

/-- The amounts that `ElasticBurned` reports. -/
def burnReportOf : Receipt Account → ℕ
  | .event (.elasticBurned _ _ _ amount) => amount
  | _ => 0

/-- The amounts that were paid. -/
def paymentOf : Receipt Account → ℕ
  | .payment payment => payment.amount
  | .mintFee _ | .burn _ _ _ | .event _ => 0

/-- The sum of a quantity of receipts. -/
def tally (quantity : Receipt Account → ℕ) (log : List (Receipt Account)) : ℕ :=
  (log.map quantity).sum

omit [DecidableEq Account] in
@[simp] theorem tally_append (quantity : Receipt Account → ℕ) (first second : List (Receipt Account)) :
    tally quantity (first ++ second) = tally quantity first + tally quantity second := by
  simp [tally]

/-! ## Deposits that land -/

/-- The label of a call. -/
def Label.IsCall : Label config → Prop
  | .call _ _ => True
  | .onRuntimeUpgrade | .balances _ => False

/-- Who signed a call, if anyone. -/
def Origin.signer : Origin Account → Option Account
  | .signed who => .some who
  | .root | .none => Option.none

/-- Every deposit that a call makes lands in full, and the issuance has room for it. -/
def CallInFull (state : State config) (origin : Origin Account) : Call Account → Prop
  | .mintClaimElastic network _ _ _ =>
    config.currency.Mints state.balances config.accountId (state.bridgeFee network).1
  | .claimElastic network dest tx _ =>
    ∀ info ∈ state.elasticClaims network tx, config.currency.Mints state.balances dest info.amount
  | .mintAndSendClaimElastic network _ who value =>
    config.currency.Mints state.balances who (value - (state.bridgeFee network).1) ∧
      config.currency.Mints (state.deposit who (value - (state.bridgeFee network).1)).balances
        config.accountId (state.bridgeFee network).1
  | .burnElastic network _ amount =>
    ∀ who ∈ origin.signer, ∀ taken ∈ config.currency.withdraw state.balances who amount,
      config.currency.Mints (config.currency.dropNegative taken.1 taken.2) config.accountId
        (state.bridgeFee network).2
  | .setBridgeAccountElastic _ _ => True
  | .setClaimLimitElastic _ _ => True
  | .setBridgeFeeElastic _ _ _ => True

instance (state : State config) (origin : Origin Account) (call : Call Account) :
    Decidable (CallInFull state origin call) :=
  match call with
  | .mintClaimElastic _ _ _ _ => inferInstanceAs (Decidable (config.currency.Mints ..))
  | .claimElastic _ _ _ _ => inferInstanceAs (Decidable (∀ info ∈ _, config.currency.Mints ..))
  | .mintAndSendClaimElastic _ _ _ _ =>
    inferInstanceAs (Decidable (config.currency.Mints .. ∧ config.currency.Mints ..))
  | .burnElastic _ _ _ =>
    inferInstanceAs (Decidable (∀ who ∈ _, ∀ taken ∈ _, config.currency.Mints ..))
  | .setBridgeAccountElastic _ _ => inferInstanceAs (Decidable True)
  | .setClaimLimitElastic _ _ => inferInstanceAs (Decidable True)
  | .setBridgeFeeElastic _ _ _ => inferInstanceAs (Decidable True)

/-- The step is a call, and every deposit that it makes is minted in full. -/
def InFull (state : State config) : Label config → Prop
  | .call origin call => CallInFull state origin call
  | .onRuntimeUpgrade | .balances _ => False

instance (state : State config) (label : Label config) : Decidable (InFull state label) :=
  match label with
  | .call origin call => inferInstanceAs (Decidable (CallInFull state origin call))
  | .onRuntimeUpgrade => inferInstanceAs (Decidable False)
  | .balances _ => inferInstanceAs (Decidable False)

theorem InFull.isCall {state : State config} {label : Label config} (inFull : InFull state label) :
    label.IsCall := by
  cases label with
  | call => trivial
  | onRuntimeUpgrade => exact inFull
  | balances => exact inFull

section steps

variable {state next : State config}

/-- A fee that is minted reaches the account of the pallet. -/
theorem payFee_books (deposits : config.currency.Deposits) {store : config.currency.Store} {fee : ℕ}
    (holds : state.balances = store) (mints : config.currency.Mints store config.accountId fee) :
    config.currency.Books store (payFee state fee).balances [⟨config.accountId, fee⟩] [] := by
  subst holds
  unfold payFee
  split_ifs with charged
  · exact deposits.books mints
  · obtain rfl : fee = 0 := by omega
    constructor
    · intro account
      simp
    · simp

/-- The balances move by exactly what the receipts of the step say. -/
theorem step_books (deposits : config.currency.Deposits)
    (covered : config.currency.Covered state.balances) {label : Label config}
    {out : List (Receipt Account)} (inFull : InFull state label)
    (taken : (pallet config).step state label = .ok (next, out)) :
    config.currency.Books state.balances next.balances (out.flatMap (creditsOf config))
      (out.flatMap debitsOf) := by
  cases label with
  | onRuntimeUpgrade => exact inFull.elim
  | balances => exact inFull.elim
  | call origin call =>
    cases dispatch_effect taken with
    | bridgeAccountSet => exact .nil _
    | claimLimitSet => exact .nil _
    | bridgeFeeSet => exact .nil _
    | @minted _ _ tx who _ amount fee mintable =>
      have mints : config.currency.Mints state.balances config.accountId fee := by
        rw [mintable.charged]
        exact inFull
      apply payFee_books deposits
      · rfl
      · exact mints
    | claimed pending => exact deposits.books (inFull _ pending)
    | @burnt who _ _ amount _ fee _ _ charged split rest withdrawn =>
      subst charged
      change config.currency.Books _ _ ([] ++ [⟨config.accountId, _⟩]) ([⟨who, amount⟩] ++ [])
      apply (config.currency.withdraw_books covered withdrawn).append
      apply payFee_books deposits
      · rfl
      · exact inFull who rfl _ withdrawn
    | @sent _ who network tx value amount fee mintable =>
      have rest : value - (state.bridgeFee network).1 = amount := by
        have := mintable.split
        have := mintable.charged
        omega
      obtain ⟨paid, charged⟩ := inFull
      rw [rest] at paid charged
      rw [← mintable.charged] at charged
      change config.currency.Books _ _ ([⟨who, amount⟩] ++ [⟨config.accountId, fee⟩]) ([] ++ [])
      apply (deposits.books paid).append
      apply payFee_books deposits
      · rfl
      · exact charged

/-- What a step credits beyond its debits is what it pays and charges beyond what it reports as
burned. -/
theorem step_reports {label : Label config} {out : List (Receipt Account)} (isCall : label.IsCall)
    (taken : (pallet config).step state label = .ok (next, out)) :
    Credit.total (out.flatMap (creditsOf config)) + tally burnReportOf out =
      Credit.total (out.flatMap debitsOf) + tally paymentOf out + tally mintFeeOf out := by
  cases label with
  | onRuntimeUpgrade => exact isCall.elim
  | balances => exact isCall.elim
  | call origin call =>
    cases dispatch_effect taken with
    | bridgeAccountSet => rfl
    | claimLimitSet => rfl
    | bridgeFeeSet => rfl
    | minted => simp [creditsOf, debitsOf, tally, burnReportOf, paymentOf, mintFeeOf]
    | claimed => simp [creditsOf, debitsOf, tally, burnReportOf, paymentOf, mintFeeOf]
    | burnt charged split =>
      simp [creditsOf, debitsOf, tally, burnReportOf, paymentOf, mintFeeOf]
      omega
    | sent => simp [creditsOf, debitsOf, tally, burnReportOf, paymentOf, mintFeeOf]

end steps

/-! ## Claims that came to be marked -/

section marked

variable {Key : Type} [DecidableEq Key] {mark : Option ClaimInfo → Bool}
  {quantity : Receipt Account → ℕ} {source reached : Key → Option ClaimInfo}
  {log out : List (Receipt Account)}

/-- The amount of a claim that is marked now and was not before. -/
def newlyMarked (mark : Option ClaimInfo → Bool) (before after : Key → Option ClaimInfo)
    (key : Key) : ℕ :=
  match after key with
  | some info => if mark (some info) ∧ ¬ mark (before key) then info.amount else 0
  | none => 0

omit [DecidableEq Key] in
theorem newlyMarked_self (claims : Key → Option ClaimInfo) :
    newlyMarked mark claims claims = fun _ => 0 := by
  funext key
  unfold newlyMarked
  cases claims key with
  | none => rfl
  | some info => simp

omit [DecidableEq Key] in
theorem newlyMarked_unmarked {key : Key} (unmarked : mark (reached key) = false) :
    newlyMarked mark source reached key = 0 := by
  unfold newlyMarked
  cases found : reached key with
  | none => rfl
  | some info =>
    rw [found] at unmarked
    simp [unmarked]

/-- Writing a claim writes its entry of the newly marked ones. -/
theorem newlyMarked_write (source reached : Key → Option ClaimInfo) (key : Key)
    (info : ClaimInfo) :
    newlyMarked mark source (Function.update reached key (some info)) =
      Function.update (newlyMarked mark source reached) key
        (if mark (some info) ∧ ¬ mark (source key) then info.amount else 0) := by
  funext other
  unfold newlyMarked
  by_cases same : other = key
  · subst same
    simp only [Function.update_self]
  · simp only [Function.update_of_ne same]

/-- What came to be marked so far, against what the receipts add up to. -/
structure MarkedSo (mark : Option ClaimInfo → Bool) (quantity : Receipt Account → ℕ)
    (source reached : Key → Option ClaimInfo) (log : List (Receipt Account)) : Prop where
  stays : ∀ key, mark (source key) = true → mark (reached key) = true
  finite : FiniteTable (newlyMarked mark source reached)
  sum : ∑ᶠ key, newlyMarked mark source reached key = tally quantity log

namespace MarkedSo

omit [DecidableEq Account] [DecidableEq Key] in
theorem refl (source : Key → Option ClaimInfo) : MarkedSo mark quantity source source [] := by
  refine ⟨fun _ => id, ?_, ?_⟩
  · rw [newlyMarked_self]
    exact .blank
  · rw [newlyMarked_self, finsum_zero]
    rfl

omit [DecidableEq Account] in
/-- Writing over an unmarked claim marks exactly what the receipts add. -/
theorem write (marked : MarkedSo mark quantity source reached log) {key : Key} {info : ClaimInfo}
    (unmarked : mark (reached key) = false)
    (adds : tally quantity out = if mark (some info) then info.amount else 0) :
    MarkedSo mark quantity source (Function.update reached key (some info)) (log ++ out) := by
  have before : mark (source key) = false := by
    by_contra already
    have := marked.stays key (by simpa using already)
    rw [unmarked] at this
    contradiction
  constructor
  case stays =>
    intro other already
    rw [Function.update_apply]
    split_ifs with same
    · rw [same, before] at already
      contradiction
    · exact marked.stays other already
  case finite =>
    rw [newlyMarked_write]
    exact marked.finite.write _ _
  case sum =>
    have total := marked.finite.total_write key
      (if mark (some info) ∧ ¬ mark (source key) then info.amount else 0)
    rw [newlyMarked_unmarked unmarked, Nat.add_zero, marked.sum] at total
    rw [newlyMarked_write, total, tally_append, adds, before]
    simp

omit [DecidableEq Account] in
/-- Writing over a claim with one of the same amount and the same mark marks nothing. -/
theorem rewrite (marked : MarkedSo mark quantity source reached log) {key : Key}
    {old info : ClaimInfo} (present : reached key = some old)
    (same : mark (some info) = mark (some old) ∧ info.amount = old.amount)
    (nothing : tally quantity out = 0) :
    MarkedSo mark quantity source (Function.update reached key (some info)) (log ++ out) := by
  have table : newlyMarked mark source (Function.update reached key (some info)) =
      newlyMarked mark source reached := by
    rw [newlyMarked_write, Function.update_eq_self_iff, newlyMarked, present, same.1, same.2]
  constructor
  case stays =>
    intro other already
    rw [Function.update_apply]
    split_ifs with here
    · have := marked.stays other already
      rwa [here, present, ← same.1] at this
    · exact marked.stays other already
  case finite =>
    rw [table]
    exact marked.finite
  case sum => rw [table, marked.sum, tally_append, nothing, Nat.add_zero]

omit [DecidableEq Account] [DecidableEq Key] in
/-- Receipts of nothing change nothing. -/
theorem same (marked : MarkedSo mark quantity source reached log)
    (nothing : tally quantity out = 0) : MarkedSo mark quantity source reached (log ++ out) := by
  refine ⟨marked.stays, marked.finite, ?_⟩
  rw [marked.sum, tally_append, nothing, Nat.add_zero]

end MarkedSo

end marked

/-! ## Claims that became paid -/

/-- Whether a claim exists and is paid. -/
def isPaid : Option ClaimInfo → Bool
  | some info => info.claimed
  | none => false

/-- The amount of a claim that is paid now and was not before. -/
def newlyPaid (before after : ClaimTable) (key : BridgeNetworks × EthereumTxHash) : ℕ :=
  match after key.1 key.2 with
  | some info => if info.claimed ∧ ¬ isPaid (before key.1 key.2) then info.amount else 0
  | none => 0

theorem newlyPaid_eq (before after : ClaimTable) : newlyPaid before after =
    newlyMarked isPaid (Function.uncurry before) (Function.uncurry after) := by
  funext ⟨network, tx⟩
  simp only [newlyPaid, newlyMarked, Function.uncurry_apply_pair]
  cases after network tx <;> rfl

theorem ClaimTable.uncurry_insert (claims : ClaimTable) (network : BridgeNetworks)
    (tx : EthereumTxHash) (info : ClaimInfo) :
    Function.uncurry (claims.insert network tx info) =
      Function.update (Function.uncurry claims) (network, tx) (some info) := by
  funext ⟨place, hash⟩
  simp only [Function.uncurry_apply_pair, insert_apply, Function.update_apply, Prod.mk.injEq]

omit [DecidableEq Account] in
theorem MarkedSo.insert {mark : Option ClaimInfo → Bool} {quantity : Receipt Account → ℕ}
    {source : BridgeNetworks × EthereumTxHash → Option ClaimInfo} {claims : ClaimTable}
    {log out : List (Receipt Account)} {network : BridgeNetworks} {tx : EthereumTxHash}
    {info : ClaimInfo} (marked : MarkedSo mark quantity source (Function.uncurry claims) log)
    (unmarked : mark (claims network tx) = false)
    (adds : tally quantity out = if mark (some info) then info.amount else 0) :
    MarkedSo mark quantity source (Function.uncurry (claims.insert network tx info))
      (log ++ out) := by
  rw [ClaimTable.uncurry_insert]
  exact marked.write unmarked adds

/-- In a run of calls, what became paid is what was paid. -/
theorem run_paidSo {source target : State config} {log : List (Receipt Account)}
    (run : (pallet config).Run Label.IsCall source log target) :
    MarkedSo isPaid paymentOf (Function.uncurry source.elasticClaims)
      (Function.uncurry target.elasticClaims) log := by
  refine run.preserves (fun reached receipts =>
    MarkedSo isPaid paymentOf (Function.uncurry source.elasticClaims)
      (Function.uncurry reached.elasticClaims) receipts) (.refl _) ?_
  intro current next receipts out label paid isCall taken
  cases label with
  | onRuntimeUpgrade => exact isCall.elim
  | balances => exact isCall.elim
  | call origin call =>
    cases dispatch_effect taken with
    | bridgeAccountSet => exact paid.same rfl
    | claimLimitSet => exact paid.same rfl
    | bridgeFeeSet => exact paid.same rfl
    | minted mintable =>
      rw [payFee_elasticClaims]
      apply paid.insert
      · rw [mintable.fresh]
        rfl
      · rfl
    | claimed pending =>
      apply paid.insert
      · exact congrArg isPaid pending
      · rfl
    | burnt =>
      rw [payFee_elasticClaims]
      exact paid.same rfl
    | sent mintable =>
      rw [payFee_elasticClaims]
      apply paid.insert
      · rw [mintable.fresh]
        rfl
      · rfl

/-- In a run of calls, the amounts of the claims that became paid are those that were paid. -/
theorem run_newlyPaid {source target : State config} {log : List (Receipt Account)}
    (run : (pallet config).Run Label.IsCall source log target) :
    ∑ᶠ key, newlyPaid source.elasticClaims target.elasticClaims key = tally paymentOf log := by
  rw [newlyPaid_eq]
  exact (run_paidSo run).sum

/-- In a run of calls whose deposits are all minted in full, from a store whose issuance covers its
balances, the issuance moves by the claims that became paid, the fees for minting and the burns that
were reported, and every balance by exactly its credits and debits. -/
theorem value_conserved {source target : State config} {log : List (Receipt Account)}
    (deposits : config.currency.Deposits) (covered : config.currency.Covered source.balances)
    (run : (pallet config).GuardedRun InFull source log target) :
    config.currency.totalIssuance target.balances + tally burnReportOf log =
        config.currency.totalIssuance source.balances +
          (∑ᶠ key, newlyPaid source.elasticClaims target.elasticClaims key) +
          tally mintFeeOf log ∧
      ∀ account, config.currency.freeBalance target.balances account +
          Credit.totalTo (log.flatMap debitsOf) account =
        config.currency.freeBalance source.balances account +
          Credit.totalTo (log.flatMap (creditsOf config)) account := by
  have paid := run_newlyPaid (run.run fun _ _ inFull => inFull.isCall)
  have moved : config.currency.Books source.balances target.balances
      (log.flatMap (creditsOf config)) (log.flatMap debitsOf) ∧
      Credit.total (log.flatMap (creditsOf config)) + tally burnReportOf log =
        Credit.total (log.flatMap debitsOf) + tally paymentOf log + tally mintFeeOf log := by
    refine run.preserves (fun reached receipts =>
      config.currency.Books source.balances reached.balances
        (receipts.flatMap (creditsOf config)) (receipts.flatMap debitsOf) ∧
      Credit.total (receipts.flatMap (creditsOf config)) + tally burnReportOf receipts =
        Credit.total (receipts.flatMap debitsOf) + tally paymentOf receipts +
          tally mintFeeOf receipts) ⟨.nil _, rfl⟩ ?_
    intro current next receipts out label kept inFull taken
    obtain ⟨books, reports⟩ := kept
    have step := step_books deposits (covered.books books) inFull taken
    have reported := step_reports inFull.isCall taken
    simp only [List.flatMap_append, tally_append, Credit.total_append]
    exact ⟨books.append step, by omega⟩
  obtain ⟨books, reports⟩ := moved
  refine ⟨?_, books.free⟩
  have issuance := books.issuance
  rw [paid]
  omega

/-! ## A claim below the minimum -/

/-- The small configuration with a minimum balance of ten. -/
def dustConfig : Config ℕ := { smallConfig with currency := referenceCurrency ℕ 10 }

/-- Nothing is stored. -/
def dustState : State dustConfig where
  balances := ⟨fun _ => 0, 0⟩
  bridgeAccount := none
  claimLimit := 0
  claims := ∅
  mintFee := none
  burnFee := none
  elasticBridgeAccounts _ := none
  elasticClaimLimits _ := none
  bridgeFees _ := none
  elasticClaims _ _ := none
  palletStorageVersion := 2

/-- A claim of some amount is minted, and account 5 claims. -/
def mintAndClaim (amount : ℕ) : List (Label dustConfig) :=
  [.call .root (.setBridgeAccountElastic .bsc 1),
    .call .root (.setClaimLimitElastic .bsc 100),
    .call (.signed 1) (.mintClaimElastic .bsc default (.replicate 20 7) amount),
    .call .none (.claimElastic .bsc 5 default default)]

theorem dustState_covered : dustConfig.currency.Covered dustState.balances where
  finite := .blank
  covers := by
    change ∑ᶠ _ : ℕ, 0 ≤ 0
    rw [finsum_zero]

/-- The pallet, refusing what would not land in full. -/
def guardedPallet (config : Config Account) :
    Machine (State config) (Label config) Error (Receipt Account) :=
  (pallet config).guarded InFull Error.currency

/-- A claim of 40 to an account without a balance is paid in full. -/
theorem mintAndClaim_conserved :
    let result := (guardedPallet dustConfig).outcome dustState (mintAndClaim 40)
    dustConfig.currency.freeBalance result.1.balances 5 = 40 ∧
      dustConfig.currency.totalIssuance result.1.balances + tally burnReportOf result.2 =
        dustConfig.currency.totalIssuance dustState.balances +
          (∑ᶠ key, newlyPaid dustState.elasticClaims result.1.elasticClaims key) +
          tally mintFeeOf result.2 := by
  have happens : ((guardedPallet dustConfig).replay dustState (mintAndClaim 40)).isOk = true := by
    decide +kernel
  have run := Machine.guardedRun_outcome happens
  exact ⟨by decide +kernel,
    (value_conserved (referenceCurrency_deposits ℕ 10) dustState_covered run).1⟩

/-- A claim of 5 to an account without a balance becomes paid, and nothing is issued. -/
theorem dust_claim_vanishes :
    dustConfig.currency.Deposits ∧ dustConfig.currency.Covered dustState.balances ∧
      ¬ ∀ (target : State dustConfig) (log : List (Receipt ℕ)),
        (pallet dustConfig).Run Label.IsCall dustState log target →
        dustConfig.currency.totalIssuance target.balances + tally burnReportOf log =
          dustConfig.currency.totalIssuance dustState.balances +
            (∑ᶠ key, newlyPaid dustState.elasticClaims target.elasticClaims key) +
            tally mintFeeOf log := by
  refine ⟨referenceCurrency_deposits ℕ 10, dustState_covered, ?_⟩
  intro conserved
  have calls : ∀ label ∈ mintAndClaim 5, label.IsCall := by
    simp [mintAndClaim, Label.IsCall]
  have happens : ((pallet dustConfig).replay dustState (mintAndClaim 5)).isOk = true := by
    decide +kernel
  have run := Machine.run_outcome calls happens
  have lost := conserved _ _ run
  rw [run_newlyPaid run] at lost
  exact absurd lost (by decide +kernel)

end GlitchRuntime.Claims

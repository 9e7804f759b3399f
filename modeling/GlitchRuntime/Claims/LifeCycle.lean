import GlitchRuntime.Claims.Effects
import GlitchRuntime.Claims.Migration

/-! # The life of a claim

A claim is absent, pending or paid, and moves only forward: it keeps its address and amount, it is
paid on the one step that makes it paid, and no step for another network moves it. What one step
can do to one claim composes to what a whole run can do.
-/

namespace GlitchRuntime.Claims

open Lib

variable {Account : Type} [DecidableEq Account] {config : Config Account}

/-- The network a call is for. -/
def Call.network : Call Account → BridgeNetworks
  | .setBridgeAccountElastic network _ => network
  | .setClaimLimitElastic network _ => network
  | .setBridgeFeeElastic network _ _ => network
  | .mintClaimElastic network _ _ _ => network
  | .claimElastic network _ _ _ => network
  | .burnElastic network _ _ => network
  | .mintAndSendClaimElastic network _ _ _ => network

/-- The network a step is for, if any; a migration is for the one network of before. -/
def Label.network : Label config → Option BridgeNetworks
  | .call _ dispatched => some dispatched.network
  | .onRuntimeUpgrade => some .bsc
  | .balances _ => none

/-- The payments among some receipts. -/
def payments (receipts : List (Receipt Account)) : List (Payment Account) :=
  receipts.filterMap fun receipt =>
    match receipt with
    | .payment payment => some payment
    | .event _ | .mintFee _ | .burn _ _ _ => none

/-- The payments for one claim. -/
def paymentsFor (network : BridgeNetworks) (tx : EthereumTxHash)
    (made : List (Payment Account)) : List (Payment Account) :=
  made.filter fun payment => payment.network = network ∧ payment.tx = tx

/-- The balances after a deposit that is dropped. -/
def credited (config : Config Account) (balances : config.currency.Store) (who : Account)
    (amount : ℕ) : config.currency.Store :=
  let (balances, imbalance) := config.currency.depositCreating balances who amount
  config.currency.dropPositive balances imbalance

/-- The balances after a fee. -/
def charged (config : Config Account) (balances : config.currency.Store) (fee : ℕ) :
    config.currency.Store :=
  if 0 < fee then credited config balances config.accountId fee else balances

/-- The balances after what a receipt tells: a payment goes to its account and a fee to that of the
pallet, and a burn is withdrawn before its fee is paid. -/
def settle (config : Config Account) (balances : config.currency.Store) :
    Receipt Account → config.currency.Store
  | .event _ => balances
  | .payment payment => credited config balances payment.dest payment.amount
  | .mintFee fee => charged config balances fee
  | .burn who amount fee =>
    match config.currency.withdraw balances who amount with
    | none => balances
    | some (rest, imbalance) => charged config (config.currency.dropNegative rest imbalance) fee

/-- The step is one of the pallet, not a change of balances elsewhere. -/
def Label.Own : Label config → Prop
  | .call _ _ | .onRuntimeUpgrade => True
  | .balances _ => False

/-- What a step for a network can do to the claims, and the payments it makes for it. -/
inductive ClaimsMove (network : Option BridgeNetworks) (claims : ClaimTable) :
    ClaimTable → List (Payment Account) → Prop
  | same : ClaimsMove network claims claims []
  | minted {home : BridgeNetworks} {tx : EthereumTxHash} {info : ClaimInfo}
      (here : network = some home) (fresh : claims home tx = none) :
      ClaimsMove network claims (claims.insert home tx info) []
  | claimed {home : BridgeNetworks} {tx : EthereumTxHash} {address : EthereumAddress} {amount : ℕ}
      {dest : Account} (here : network = some home)
      (pending : claims home tx = some ⟨address, amount, false⟩) :
      ClaimsMove network claims (claims.insert home tx ⟨address, amount, true⟩)
        [⟨home, tx, dest, amount⟩]
  | sent {home : BridgeNetworks} {tx : EthereumTxHash} {address : EthereumAddress} {amount : ℕ}
      {dest : Account} (here : network = some home) (fresh : claims home tx = none) :
      ClaimsMove network claims (claims.insert home tx ⟨address, amount, true⟩)
        [⟨home, tx, dest, amount⟩]
  | migrated {copied : EthereumTxHash → Option ClaimInfo} (here : network = some .bsc)
      (keeps : ∀ tx info, claims .bsc tx = some info → copied tx = some info) :
      ClaimsMove network claims (Function.update claims .bsc copied) []

/-! ## What one step does -/

section steps

variable {state next : State config}

/-- Every step moves the claims in one of the five ways. -/
theorem step_move {label : Label config} {out : List (Receipt Account)}
    (taken : (pallet config).step state label = .ok (next, out)) :
    ClaimsMove label.network state.elasticClaims next.elasticClaims (payments out) := by
  cases label with
  | balances store =>
    obtain ⟨rfl, rfl⟩ := Prod.mk.inj (Except.ok.inj taken)
    exact .same
  | onRuntimeUpgrade =>
    obtain ⟨rfl, rfl⟩ := Prod.mk.inj (Except.ok.inj taken)
    rw [onRuntimeUpgrade_elasticClaims]
    split_ifs
    · exact .same
    · apply ClaimsMove.migrated rfl
      intro tx info present
      rw [foldl_copyClaim state.claims.nodupKeys, present]
      rfl
  | call origin dispatched =>
    cases dispatch_effect taken with
    | bridgeAccountSet => exact .same
    | claimLimitSet => exact .same
    | bridgeFeeSet => exact .same
    | minted mintable =>
      rw [payFee_elasticClaims]
      exact .minted rfl mintable.fresh
    | claimed pending => exact .claimed rfl pending
    | burnt =>
      rw [payFee_elasticClaims]
      exact .same
    | sent mintable =>
      rw [payFee_elasticClaims]
      exact .sent rfl mintable.fresh

theorem payFee_charged (fee : ℕ) :
    (payFee state fee).balances = charged config state.balances fee := by
  unfold payFee charged
  split_ifs <;> rfl

/-- A step of the pallet changes balances by its receipts alone, so that nothing is paid without
one. -/
theorem step_settles {label : Label config} {out : List (Receipt Account)} (own : label.Own)
    (taken : (pallet config).step state label = .ok (next, out)) :
    next.balances = out.foldl (settle config) state.balances := by
  cases label with
  | balances store => exact own.elim
  | onRuntimeUpgrade =>
    obtain ⟨rfl, rfl⟩ := Prod.mk.inj (Except.ok.inj taken)
    exact onRuntimeUpgrade_balances _
  | call origin dispatched =>
    cases dispatch_effect taken with
    | bridgeAccountSet => rfl
    | claimLimitSet => rfl
    | bridgeFeeSet => rfl
    | minted => exact payFee_charged _
    | claimed => rfl
    | burnt _ _ _ withdrawn =>
      rw [payFee_charged]
      simp only [List.foldl_cons, List.foldl_nil, settle, withdrawn]
    | sent => exact payFee_charged _

end steps

/-! ## What a run does to one claim -/

/-- How far a claim has come, and the payments made for it on the way. -/
inductive Progress : Option ClaimInfo → Option ClaimInfo → List (Payment Account) → Prop
  | same (entry : Option ClaimInfo) : Progress entry entry []
  | entered (info : ClaimInfo) : Progress none (some info) []
  | claimed {address : EthereumAddress} {amount : ℕ} {payment : Payment Account}
      (agrees : payment.amount = amount) :
      Progress (some ⟨address, amount, false⟩) (some ⟨address, amount, true⟩) [payment]
  | sent {address : EthereumAddress} {amount : ℕ} {payment : Payment Account}
      (agrees : payment.amount = amount) :
      Progress none (some ⟨address, amount, true⟩) [payment]

namespace Progress

variable {before middle after : Option ClaimInfo} {early late made : List (Payment Account)}

omit [DecidableEq Account] in
/-- Progress composes: nothing leads on from a paid claim, and only payment from a pending one. -/
theorem trans (first : Progress before middle early) (second : Progress middle after late) :
    Progress before after (early ++ late) := by
  cases first with
  | same entry => exact second
  | entered info =>
    cases second with
    | same entry => exact .entered info
    | claimed paid => exact .sent paid
  | claimed paid =>
    cases second with
    | same entry => exact .claimed paid
  | sent paid =>
    cases second with
    | same entry => exact .sent paid

omit [DecidableEq Account] in
/-- A claim stays, with its address and amount, and paid once it is. -/
theorem keeps (progress : Progress before after made) {info : ClaimInfo}
    (present : before = some info) : ∃ later, after = some later ∧
      later.address = info.address ∧ later.amount = info.amount ∧
      (info.claimed = true → later.claimed = true) := by
  cases progress with
  | same entry => exact ⟨info, present, rfl, rfl, id⟩
  | entered other => contradiction
  | claimed paid =>
    obtain rfl := Option.some.inj present
    exact ⟨_, rfl, rfl, rfl, fun _ => rfl⟩
  | sent paid => contradiction

omit [DecidableEq Account] in
/-- At most one payment is made. -/
theorem paid_at_most_once (progress : Progress before after made) : made.length ≤ 1 := by
  cases progress <;> simp

omit [DecidableEq Account] in
/-- A payment is of the claim's amount, for a claim that was not paid before and is after. -/
theorem payment_exact (progress : Progress before after made) {payment : Payment Account}
    (paid : payment ∈ made) : (∀ info, before = some info → info.claimed = false) ∧
      ∃ info, after = some info ∧ info.claimed = true ∧ payment.amount = info.amount := by
  cases progress with
  | same entry => simp at paid
  | entered info => simp at paid
  | claimed amount =>
    obtain rfl := List.mem_singleton.mp paid
    refine ⟨?_, _, rfl, rfl, amount⟩
    intro info present
    obtain rfl := Option.some.inj present
    rfl
  | sent amount =>
    obtain rfl := List.mem_singleton.mp paid
    exact ⟨fun info present => by contradiction, _, rfl, rfl, amount⟩

end Progress

omit [DecidableEq Account] in
/-- Writing one claim brings that one forward, and all others stay. -/
theorem progress_insert {claims : ClaimTable} {place : BridgeNetworks} {hash : EthereumTxHash}
    {info : ClaimInfo} {made : List (Payment Account)}
    (own : Progress (claims place hash) (some info) made)
    (addressed : ∀ payment ∈ made, payment.network = place ∧ payment.tx = hash)
    (home : BridgeNetworks) (tx : EthereumTxHash) :
    Progress (claims home tx) (claims.insert place hash info home tx)
      (paymentsFor home tx made) := by
  rw [ClaimTable.insert_apply]
  split_ifs with written
  · obtain ⟨rfl, rfl⟩ := written
    have all : paymentsFor home tx made = made := by
      apply List.filter_eq_self.mpr
      intro payment paid
      exact decide_eq_true (addressed payment paid)
    rw [all]
    exact own
  · have nothing : paymentsFor home tx made = [] := by
      apply List.filter_eq_nil_iff.mpr
      intro payment paid matched
      obtain ⟨network, transaction⟩ := addressed payment paid
      have own : payment.network = home ∧ payment.tx = tx := of_decide_eq_true matched
      exact written ⟨own.1.symm.trans network, own.2.symm.trans transaction⟩
    rw [nothing]
    exact .same _

omit [DecidableEq Account] in
/-- A move brings every single claim forward. -/
theorem ClaimsMove.progress {network : Option BridgeNetworks} {claims after : ClaimTable}
    {made : List (Payment Account)} (move : ClaimsMove network claims after made)
    (home : BridgeNetworks) (tx : EthereumTxHash) :
    Progress (claims home tx) (after home tx) (paymentsFor home tx made) := by
  cases move with
  | same => exact .same _
  | minted here fresh =>
    apply progress_insert
    · rw [fresh]
      exact .entered _
    · simp
  | claimed here pending =>
    apply progress_insert
    · rw [pending]
      exact .claimed rfl
    · simp
  | sent here fresh =>
    apply progress_insert
    · rw [fresh]
      exact .sent rfl
    · simp
  | @migrated copied here keeps =>
    by_cases moved : home = .bsc
    · subst moved
      rw [Function.update_self]
      cases present : claims .bsc tx with
      | some info =>
        rw [keeps tx info present]
        exact .same _
      | none =>
        cases copied tx with
        | none => exact .same _
        | some info => exact .entered info
    · rw [Function.update_of_ne moved]
      exact .same _

omit [DecidableEq Account] in
/-- A move for one network leaves the claims of the others. -/
theorem ClaimsMove.frame {network : Option BridgeNetworks} {claims after : ClaimTable}
    {made : List (Payment Account)} (move : ClaimsMove network claims after made)
    {other : BridgeNetworks} (apart : network ≠ some other) : after other = claims other := by
  have elsewhere {place : BridgeNetworks} (here : network = some place) : other ≠ place := by
    rintro rfl
    exact apart here
  cases move with
  | same => rfl
  | minted here => exact Function.update_of_ne (elsewhere here) ..
  | claimed here => exact Function.update_of_ne (elsewhere here) ..
  | sent here => exact Function.update_of_ne (elsewhere here) ..
  | migrated here => exact Function.update_of_ne (elsewhere here) ..

omit [DecidableEq Account] in
theorem payments_append (first second : List (Receipt Account)) :
    payments (first ++ second) = payments first ++ payments second :=
  List.filterMap_append ..

omit [DecidableEq Account] in
theorem paymentsFor_append (network : BridgeNetworks) (tx : EthereumTxHash)
    (first second : List (Payment Account)) :
    paymentsFor network tx (first ++ second) =
      paymentsFor network tx first ++ paymentsFor network tx second :=
  List.filter_append ..

/-- What a whole run does to one claim is one piece of progress. -/
theorem run_progress {source target : State config} {log : List (Receipt Account)}
    (run : (pallet config).Run (fun _ => True) source log target)
    (network : BridgeNetworks) (tx : EthereumTxHash) :
    Progress (source.elasticClaims network tx) (target.elasticClaims network tx)
      (paymentsFor network tx (payments log)) := by
  refine run.preserves (fun reached receipts =>
    Progress (source.elasticClaims network tx) (reached.elasticClaims network tx)
      (paymentsFor network tx (payments receipts))) (.same _) ?_
  intro current next receipts out label progress _ taken
  rw [payments_append, paymentsFor_append]
  exact progress.trans ((step_move taken).progress network tx)

/-- A run of steps for other networks leaves the claims of a network. -/
theorem run_frame {source target : State config} {log : List (Receipt Account)}
    {network : BridgeNetworks}
    (run : (pallet config).Run (fun label => label.network ≠ some network) source log target) :
    target.elasticClaims network = source.elasticClaims network := by
  refine run.preserves (fun reached _ =>
    reached.elasticClaims network = source.elasticClaims network) rfl ?_
  intro current next _ out label kept apart taken
  exact ((step_move taken).frame apart).trans kept

/-- A run of the pallet changes balances by its receipts alone. -/
theorem run_settles {source target : State config} {log : List (Receipt Account)}
    (run : (pallet config).Run Label.Own source log target) :
    target.balances = log.foldl (settle config) source.balances := by
  refine run.preserves (fun reached receipts =>
    reached.balances = receipts.foldl (settle config) source.balances) rfl ?_
  intro current next receipts out label settled own taken
  rw [List.foldl_append, ← settled]
  exact step_settles own taken

/-- In every run, from any state, a claim that exists stays, with its address and amount, and stays
paid once it is. It is paid at most once, only while unpaid, and exactly its amount. A run of steps
for other networks leaves the claims of a network alone. From whatever was reached, the steps of the
pallet change balances by the payments and charges of their receipts alone. -/
theorem claim_lifeCycle {source target : State config} {log : List (Receipt Account)}
    (run : (pallet config).Run (fun _ => True) source log target) :
    (∀ network tx info, source.elasticClaims network tx = some info →
      ∃ later, target.elasticClaims network tx = some later ∧ later.address = info.address ∧
        later.amount = info.amount ∧ (info.claimed = true → later.claimed = true)) ∧
    (∀ network tx, (paymentsFor network tx (payments log)).length ≤ 1) ∧
    (∀ network tx, ∀ payment ∈ paymentsFor network tx (payments log),
      (∀ info, source.elasticClaims network tx = some info → info.claimed = false) ∧
        ∃ info, target.elasticClaims network tx = some info ∧ info.claimed = true ∧
          payment.amount = info.amount) ∧
    (∀ network, (pallet config).Run (fun label => label.network ≠ some network) source log target →
      target.elasticClaims network = source.elasticClaims network) ∧
    ∀ next more, (pallet config).Run Label.Own target more next →
      next.balances = more.foldl (settle config) target.balances := by
  refine ⟨?_, ?_, ?_, ?_, ?_⟩
  · intro network tx info present
    exact (run_progress run network tx).keeps present
  · intro network tx
    exact (run_progress run network tx).paid_at_most_once
  · intro network tx payment paid
    exact (run_progress run network tx).payment_exact paid
  · intro network apart
    exact run_frame apart
  · intro next more own
    exact run_settles own

/-! ## A claim across a migration -/

/-- A claim of 40 is minted for a fee of 2, the storage is migrated, account 5 claims, and burns 10
of which 3 are a fee. -/
def mintMigrateClaim : List (Label smallConfig) :=
  [.call .root (.setBridgeAccountElastic .bsc 1),
    .call .root (.setClaimLimitElastic .bsc 100),
    .call .root (.setBridgeFeeElastic .bsc 2 3),
    .call (.signed 1) (.mintClaimElastic .bsc default (.replicate 20 7) 42),
    .onRuntimeUpgrade,
    .call .none (.claimElastic .bsc 5 default default),
    .call (.signed 5) (.burnElastic .bsc (.replicate 20 7) 10)]

/-- The claim is paid once across the migration, and all balances come from the receipts. -/
theorem mintMigrateClaim_paidOnce :
    let result := (pallet smallConfig).outcome emptyState mintMigrateClaim
    payments result.2 = [⟨.bsc, default, 5, 40⟩] ∧
      (paymentsFor .bsc default (payments result.2)).length ≤ 1 ∧
      result.1.balances = result.2.foldl (settle smallConfig) emptyState.balances ∧
      smallConfig.currency.freeBalance result.1.balances 5 = 30 ∧
      smallConfig.currency.freeBalance result.1.balances 0 = 5 := by
  have happens : ((pallet smallConfig).replay emptyState mintMigrateClaim).isOk = true := by
    decide +kernel
  have own : ∀ label ∈ mintMigrateClaim, label.Own := by
    simp [mintMigrateClaim, Label.Own]
  obtain ⟨-, paid, -⟩ := claim_lifeCycle (Machine.run_outcome (fun _ _ => trivial) happens)
  obtain ⟨-, -, -, -, settled⟩ := claim_lifeCycle (.nil emptyState)
  exact ⟨by decide +kernel, paid .bsc default, settled _ _ (Machine.run_outcome own happens),
    by decide +kernel, by decide +kernel⟩

end GlitchRuntime.Claims

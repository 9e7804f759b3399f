import GlitchRuntime.Staking.Amounts
import GlitchRuntime.Staking.Spans

/-! # Computing slashes

A report of an offence is turned into a slash of the validator and of those who nominated it. What
it takes is the maximum in the era for the validator, adds up over validators for a nominator, and
within a span of eras only ever the maximum. The record that comes out is applied at another time.
-/

namespace GlitchRuntime.Staking

open Lib

/-- The proportion of the slashing reward to be paid out on the first slashing detection. -/
def rewardF1 : Perbill := ⟨500000000, by norm_num⟩

/-- What a span of a stash was slashed, and what was paid out to reporters for it. -/
structure SpanRecord where
  slashed : ℕ
  paidOut : ℕ
deriving DecidableEq, Inhabited

/-- The slashing metadata of one stash: its entry of `SlashingSpans` and those of `SpanSlash`. -/
structure SpanBook where
  spans : Option SlashingSpans
  records : ℕ → SpanRecord

instance : Inhabited SpanBook := ⟨⟨none, fun _ => default⟩⟩

/-- A set of spans that is being inspected, with what the inspection slashes and pays out. -/
structure InspectingSpans where
  book : SpanBook
  spans : SlashingSpans
  dirty : Bool
  slashOf : ℕ
  paidOut : ℕ

/-- What stays the same while a stash is inspected. -/
structure Inspection where
  /-- The first era in the current bonding period. -/
  windowStart : ℕ
  now : ℕ
  /-- The era where the offence occurred. -/
  slashEra : ℕ
  /-- The maximum percentage of a slash that ever gets paid out. -/
  rewardProportion : Perbill

/-- Fetch the spans of a stash, initializing them if necessary. -/
def fetchSpans (book : SpanBook) (windowStart : ℕ) : InspectingSpans :=
  match book.spans with
  | some spans => ⟨book, spans, false, 0, 0⟩
  | none =>
    let spans := SlashingSpans.new windowStart
    ⟨{ book with spans := some spans }, spans, false, 0, 0⟩

namespace InspectingSpans

/-- End the ongoing span. -/
def endSpan (inspecting : InspectingSpans) (now : ℕ) : InspectingSpans :=
  let (spans, started) := inspecting.spans.endSpan now
  { inspecting with spans, dirty := started || inspecting.dirty }

/-- Add some value to the slash of the staker. -/
def addSlash (inspecting : InspectingSpans) (amount slashEra : ℕ) : InspectingSpans :=
  { inspecting with
    slashOf := inspecting.slashOf + amount
    spans := { inspecting.spans with
      lastNonzeroSlash := max inspecting.spans.lastNonzeroSlash slashEra } }

/-- Write a record under an index. -/
def insertRecord (inspecting : InspectingSpans) (index : ℕ) (record : SpanRecord) :
    InspectingSpans :=
  { inspecting with
    dirty := true
    book := { inspecting.book with
      records := Function.update inspecting.book.records index record } }

/-- Compare the slash in an era to the overall slash of its span, and apply the difference if it is
higher. The result names the span, if one covers the era. -/
def compareAndUpdateSpanSlash (inspecting : InspectingSpans) (inspection : Inspection)
    (slash : ℕ) : InspectingSpans × Option ℕ :=
  match inspecting.spans.eraSpan inspection.slashEra with
  | none => (inspecting, none)
  | some index =>
    let record := inspecting.book.records index
    let share := rewardF1.mul (inspection.rewardProportion.mul slash - record.paidOut)
    let (inspecting, record, changed, reward) :=
      if record.slashed < slash then
        (inspecting.addSlash (slash - record.slashed) inspection.slashEra,
          { record with slashed := slash }, true, share)
      else if record.slashed = slash then (inspecting, record, false, share)
      else (inspecting, record, false, 0)
    let inspecting := { inspecting with paidOut := inspecting.paidOut + reward }
    let record := { record with paidOut := record.paidOut + reward }
    (if changed ∨ reward ≠ 0 then inspecting.insertRecord index record else inspecting, some index)

/-- Write the spans back, once something changed, without those that left the window. -/
def drop (inspecting : InspectingSpans) (windowStart : ℕ) : SpanBook :=
  if inspecting.dirty then
    let (spans, pruned) := inspecting.spans.prune windowStart
    { spans := some spans
      records := match pruned with
        | some (start, stop) =>
          fun index => if start ≤ index ∧ index < stop then default
            else inspecting.book.records index
        | none => inspecting.book.records }
  else inspecting.book

end InspectingSpans

/-- What an inspection leaves of a book, slashes and pays out; and whether the offence falls into
the span that was ongoing. -/
structure Finding where
  book : SpanBook
  slashed : ℕ
  paidOut : ℕ
  target : Option ℕ
  current : Bool

namespace SpanBook

/-- Compare the slash of an era with its span, and end the span if it is the ongoing one. This is
what the validator and each of its nominators go through. -/
def slashInSpan (book : SpanBook) (inspection : Inspection) (slash : ℕ) : Finding :=
  let spans := fetchSpans book inspection.windowStart
  let (spans, target) := spans.compareAndUpdateSpanSlash inspection slash
  let current := target = some spans.spans.spanIndex
  let spans := if current then spans.endSpan inspection.now else spans
  ⟨spans.drop inspection.windowStart, spans.slashOf, spans.paidOut, target, current⟩

/-- End the ongoing span if the offence falls into it, without any slash. -/
def kickOutIfRecent (book : SpanBook) (inspection : Inspection) : SpanBook × Bool :=
  let spans := fetchSpans book inspection.windowStart
  let current := spans.spans.eraSpan inspection.slashEra = some spans.spans.spanIndex
  let spans := if current then spans.endSpan inspection.now else spans
  (spans.drop inspection.windowStart, current)

/-- Clear the slashing metadata of a dead account, given how many spans there are. -/
def clear (book : SpanBook) (numSlashingSpans : ℕ) : Except Error SpanBook :=
  match book.spans with
  | none => .ok book
  | some spans => do
    ensure (spans.iter.length ≤ numSlashingSpans) .incorrectSlashingSpans
    return {
      spans := none
      records := fun index =>
        if index ∈ spans.iter.map (·.index) then default else book.records index }

end SpanBook

/-! ## Storage -/

/-- A slash that has been computed but not applied yet. -/
structure UnappliedSlash (Account : Type) where
  validator : Account
  own : ℕ
  others : List (Account × ℕ)
  reporters : List Account
  payout : ℕ
deriving DecidableEq

/-- When to disable offenders. -/
inductive DisableStrategy
  | never
  | whenSlashed
  | always
deriving DecidableEq

/-- The constants and the arithmetic of slashing, with the part of the currency that it uses. -/
structure SlashConfig (Account : Type) [DecidableEq Account] extends Config Account where
  slashDeferDuration : ℕ
  offendingValidatorsThreshold : Perbill
  /-- `Perquintill::from_rational(slash, affected) * target`. -/
  perquintill : ℕ → ℕ → ℕ → ℕ
  perquintill_le : ∀ slash affected target, perquintill slash affected target ≤ target
  /-- `Currency::slash`: the store after, the imbalance, and what was missing. -/
  slash : currency.Store → Account → ℕ → currency.Store × ℕ × ℕ
  slash_split : ∀ store who amount,
    (slash store who amount).2.1 + (slash store who amount).2.2 = amount
  /-- The imbalance comes out of the free balance, and the rest out of what is reserved. -/
  slash_debits : ∀ store who amount, ∃ free ≤ (slash store who amount).2.1,
    currency.Credits (slash store who amount).1 store who free
  /-- The account that `T::Slash` resolves imbalances to. -/
  treasury : Account

/-- How the ledgers of a runtime are slashed. -/
def SlashConfig.arithmetic {Account : Type} [DecidableEq Account] (config : SlashConfig Account) :
    SlashArithmetic where
  perquintill := config.perquintill
  perquintill_le := config.perquintill_le
  minimumBalance := config.currency.minimumBalance
  bondingDuration := config.bondingDuration

/-- The storage about slashes, with what the pallet asks of the session. -/
structure SlashStorage (Account : Type) where
  books : Account → SpanBook
  validatorSlashInEra : ℕ → Account → Option (Perbill × ℕ)
  nominatorSlashInEra : ℕ → Account → Option ℕ
  /-- Indices of offending validators, and whether each has been disabled. -/
  offendingValidators : List (ℕ × Bool)
  slashRewardFraction : Perbill
  invulnerables : List Account
  /-- The eras of the bonding period, each with its first session. -/
  bondedEras : List (ℕ × ℕ)
  earliestUnappliedSlash : Option ℕ
  unappliedSlashes : ℕ → List (UnappliedSlash Account)
  /-- `SessionInterface::validators`. -/
  sessionValidators : List Account
  /-- The indices that `SessionInterface::disable_validator` was called with in this session. -/
  disabled : Finset ℕ

/-- The storage that a report of an offence works on. -/
structure OffenceState {Account : Type} [DecidableEq Account] (config : SlashConfig Account) extends
    RoleState config.toConfig, SlashStorage Account

/-- Slashing starts with no offence on record. -/
def genesisOffences {Account : Type} [DecidableEq Account] {config : SlashConfig Account}
    (state : RoleState config.toConfig) : OffenceState config where
  toRoleState := state
  books _ := default
  validatorSlashInEra _ _ := none
  nominatorSlashInEra _ _ := none
  offendingValidators := []
  slashRewardFraction := 0
  invulnerables := []
  bondedEras := []
  earliestUnappliedSlash := none
  unappliedSlashes _ := []
  sessionValidators := []
  disabled := ∅

variable {Account : Type} [DecidableEq Account] {config : SlashConfig Account}

/-- Write the book of a stash. The bonding calls read how many spans it has. -/
def putBook (state : OffenceState config) (stash : Account) (book : SpanBook) :
    OffenceState config :=
  { state with
    books := Function.update state.books stash book
    slashingSpans := Function.update state.slashingSpans stash
      (book.spans.map (·.iter.length)) }

/-- Force a new era, unless one is forced already. -/
def ensureNewEra (state : OffenceState config) : OffenceState config :=
  match state.forceEra with
  | .forceAlways | .forceNew => state
  | _ => { state with forceEra := .forceNew }

/-- `SessionInterface::disable_validator`. -/
def disableValidator (state : OffenceState config) (index : ℕ) : OffenceState config :=
  { state with disabled := insert index state.disabled }

/-- Where `binary_search_by_key` finds an index among the offenders, or where it belongs. -/
def searchOffender (offending : List (ℕ × Bool)) (index : ℕ) : Except ℕ ℕ :=
  let position := offending.findIdx (index ≤ ·.1)
  if (offending[position]?.map (·.1)) = some index then .ok position else .error position

/-- Add the given validator to the offenders and optionally disable it. At the threshold a new era
is forced. -/
def addOffendingValidator (state : OffenceState config) (stash : Account) (disable : Bool) :
    OffenceState config :=
  match state.sessionValidators.idxOf? stash with
  | none => state
  | some validatorIndex =>
    match searchOffender state.offendingValidators validatorIndex with
    | .error index =>
      let offending := state.offendingValidators.insertIdx index (validatorIndex, disable)
      let threshold := config.offendingValidatorsThreshold.mul state.sessionValidators.length
      let state := if threshold ≤ offending.length then ensureNewEra state else state
      let state := { state with offendingValidators := offending }
      if disable then disableValidator state validatorIndex else state
    | .ok index =>
      if disable ∧ (state.offendingValidators[index]?.map (·.2)) = some false then
        disableValidator
          { state with
            offendingValidators := state.offendingValidators.set index (validatorIndex, true) }
          validatorIndex
      else state

/-! ## Computing a slash -/

/-- Parameters for performing a slash. -/
structure SlashParams (Account : Type) extends Inspection where
  stash : Account
  slash : Perbill
  exposure : Exposure Account
  disableStrategy : DisableStrategy

/-- Chill a stash, roles and all. -/
def chillOffender (state : OffenceState config) (stash : Account) : OffenceState config :=
  { state with toRoleState := chillStash state.toRoleState stash }

/-- Kick out the validator if the misbehavior is from the most recent slashing span. -/
def kickOutIfRecent (state : OffenceState config) (params : SlashParams Account) :
    OffenceState config :=
  let (book, current) := (state.books params.stash).kickOutIfRecent params.toInspection
  let state := putBook state params.stash book
  let state := if current then chillOffender state params.stash else state
  addOffendingValidator state params.stash (params.disableStrategy = .always)

/-- The era slash of a nominator, raised by what one validator adds to it. -/
def raiseEraSlash (state : OffenceState config) (params : SlashParams Account)
    (priorSlash : Perbill) (nominator : IndividualExposure Account) : OffenceState config × ℕ :=
  let difference := params.slash.mul nominator.value - priorSlash.mul nominator.value
  let eraSlash := (state.nominatorSlashInEra params.slashEra nominator.who).getD 0 + difference
  ({ state with
    nominatorSlashInEra := Function.update state.nominatorSlashInEra params.slashEra
      (Function.update (state.nominatorSlashInEra params.slashEra) nominator.who
        (some eraSlash)) }, eraSlash)

/-- Slash one nominator: the state, what it is slashed and what is paid out. -/
def slashNominator (state : OffenceState config) (params : SlashParams Account)
    (priorSlash : Perbill) (nominator : IndividualExposure Account) :
    OffenceState config × ℕ × ℕ :=
  let (state, eraSlash) := raiseEraSlash state params priorSlash nominator
  let finding := (state.books nominator.who).slashInSpan params.toInspection eraSlash
  (putBook state nominator.who finding.book, finding.slashed, finding.paidOut)

/-- Slash nominators, with the amounts and the reward to pay out. -/
def slashNominators (params : SlashParams Account) (priorSlash : Perbill) :
    List (IndividualExposure Account) → OffenceState config →
      OffenceState config × List (Account × ℕ) × ℕ
  | [], state => (state, [], 0)
  | nominator :: rest, state =>
    let (state, slashed, paid) := slashNominator state params priorSlash nominator
    let (state, others, payout) := slashNominators params priorSlash rest state
    (state, (nominator.who, slashed) :: others, paid + payout)

/-- The highest slash of a validator in an era so far. -/
def priorSlash (state : OffenceState config) (era : ℕ) (stash : Account) : Perbill :=
  ((state.validatorSlashInEra era stash).map (·.1)).getD 0

/-- Apply the slash to the metadata of the validator itself. -/
def slashValidator (state : OffenceState config) (params : SlashParams Account) :
    OffenceState config × ℕ × ℕ :=
  let finding := (state.books params.stash).slashInSpan params.toInspection
    (params.slash.mul params.exposure.own)
  let state := putBook state params.stash finding.book
  let state := if finding.current then chillOffender state params.stash else state
  (state, finding.slashed, finding.paidOut)

/-- Compute a slash of a validator and its nominators, to be applied at some later point. Nothing
comes out of it when the slash is no new maximum for the era. -/
def computeSlash (state : OffenceState config) (params : SlashParams Account) :
    OffenceState config × Option (UnappliedSlash Account) :=
  let ownSlash := params.slash.mul params.exposure.own
  if params.slash.mul params.exposure.total = 0 then (kickOutIfRecent state params, none)
  else
    let prior := priorSlash state params.slashEra params.stash
    if prior.parts < params.slash.parts then
      let state := { state with
        validatorSlashInEra := Function.update state.validatorSlashInEra params.slashEra
          (Function.update (state.validatorSlashInEra params.slashEra) params.stash
            (some (params.slash, ownSlash))) }
      let (state, own, paid) := slashValidator state params
      let state := addOffendingValidator state params.stash (params.disableStrategy ≠ .never)
      let (state, others, payout) :=
        slashNominators params prior params.exposure.others state
      (state, some
        { validator := params.stash, own, others, reporters := [], payout := paid + payout })
    else (state, none)

end GlitchRuntime.Staking

import GlitchRuntime.Lib.Removal
import GlitchRuntime.Staking.SpanRuns
import GlitchRuntime.Staking.System

/-! # Offences and deferred slashes

A report of offences computes slashes now and applies them after some eras have gone by, unless
they are cancelled. Applying one takes the amounts out of the ledgers and balances of those it
names, pays the reporters, and leaves the rest to the treasury.
-/

namespace GlitchRuntime.Staking

open Lib

variable {Account : Type} [DecidableEq Account] {config : SlashConfig Account}

/-! ## Applying a slash -/

/-- `Currency::resolve_creating`: what cannot be deposited is burned. -/
def resolveCreating (config : SlashConfig Account) (store : config.currency.Store) (who : Account)
    (amount : ℕ) : config.currency.Store :=
  let (store, credited) := config.currency.depositCreating store who amount
  config.currency.dropNegative store (amount - credited)

/-- `T::Slash::on_unbalanced`. -/
def onUnbalanced (config : SlashConfig Account) (store : config.currency.Store) (amount : ℕ) :
    config.currency.Store :=
  if amount = 0 then store else resolveCreating config store config.treasury amount

/-- What applying a slash has collected so far, and what it still owes the reporters. -/
structure Collected where
  rewardPayout : ℕ
  slashedImbalance : ℕ
deriving DecidableEq

/-- Apply the slash to a stash account, deducting any missing funds from the reward payout. -/
def doSlash (state : OffenceState config) (collected : Collected) (slashEra : ℕ)
    (entry : Account × ℕ) : OffenceState config × Collected :=
  match state.bonded entry.1 with
  | none => (state, collected)
  | some controller =>
    match state.ledger controller with
    | none => (state, collected)
    | some ledger =>
      let (ledger, value) := ledger.slash config.arithmetic entry.2 slashEra
      if value = 0 then (state, collected)
      else
        let (store, imbalance, missing) := config.slash state.store entry.1 value
        ({ state with toState := updateLedger { state.toState with store } controller ledger },
          ⟨collected.rewardPayout - missing, collected.slashedImbalance + imbalance⟩)

/-- Slash everyone on a list. -/
def doSlashes (slashEra : ℕ) :
    List (Account × ℕ) → OffenceState config → Collected → OffenceState config × Collected
  | [], state, collected => (state, collected)
  | entry :: rest, state, collected =>
    let (state, collected) := doSlash state collected slashEra entry
    doSlashes slashEra rest state collected

/-- Pay every reporter the same, out of what is there for all of them. -/
def payEach (config : SlashConfig Account) (perReporter : ℕ) :
    List Account → config.currency.Store → ℕ → config.currency.Store × ℕ
  | [], store, rewardPayout => (store, rewardPayout)
  | reporter :: rest, store, rewardPayout =>
    let reporterReward := min rewardPayout perReporter
    payEach config perReporter rest (resolveCreating config store reporter reporterReward)
      (rewardPayout - reporterReward)

/-- Apply a reward payout to some reporters, paying the rewards out of the slashed imbalance. -/
def payReporters (config : SlashConfig Account) (store : config.currency.Store)
    (collected : Collected) (reporters : List Account) : config.currency.Store :=
  if collected.rewardPayout = 0 ∨ reporters = [] then
    onUnbalanced config store collected.slashedImbalance
  else
    let rewardPayout := min collected.rewardPayout collected.slashedImbalance
    let valueSlashed := collected.slashedImbalance - rewardPayout
    let (store, rewardPayout) :=
      payEach config (rewardPayout / reporters.length) reporters store rewardPayout
    onUnbalanced config store (valueSlashed + rewardPayout)

/-- Everyone that an unapplied slash names, the validator first. -/
def UnappliedSlash.entries (unapplied : UnappliedSlash Account) : List (Account × ℕ) :=
  (unapplied.validator, unapplied.own) :: unapplied.others

/-- Apply a previously-unapplied slash. -/
def applySlash (state : OffenceState config) (unapplied : UnappliedSlash Account)
    (slashEra : ℕ) : OffenceState config :=
  let (state, collected) := doSlashes slashEra unapplied.entries state ⟨unapplied.payout, 0⟩
  { state with store := payReporters config state.store collected unapplied.reporters }

/-! ## Reporting offences -/

/-- An offence as it is reported: the offender with its exposure, and who reported it. -/
structure OffenceDetails (Account : Type) where
  offender : Account
  exposure : Exposure Account
  reporters : List Account

/-- What a step does with slashes. -/
inductive SlashReceipt (Account : Type)
  /-- Computed, and deferred from an era. -/
  | deferred (era : ℕ) (unapplied : UnappliedSlash Account)
  /-- Applied in an active era, for an era. -/
  | applied (now era : ℕ) (unapplied : UnappliedSlash Account)
  | cancelled (era : ℕ) (unapplied : UnappliedSlash Account)
  /-- An era became active with a session. -/
  | started (era session : ℕ)
deriving DecidableEq

/-- The era an offence in a session is slashed for: the active one, or one of the bonding period. -/
def slashEraOf (state : OffenceState config) (activeEra slashSession : ℕ) : Option ℕ :=
  if (state.erasStartSessionIndex activeEra).getD 0 ≤ slashSession then some activeEra
  else (state.bondedEras.reverse.find? (·.2 ≤ slashSession)).map (·.1)

/-- Push a slash to those that wait since an era. -/
def deferSlash (state : OffenceState config) (era : ℕ) (unapplied : UnappliedSlash Account) :
    OffenceState config :=
  { state with
    unappliedSlashes := Function.update state.unappliedSlashes era
      (state.unappliedSlashes era ++ [unapplied]) }

/-- The parameters that an offender is slashed with. -/
def slashParams (state : OffenceState config) (activeEra slashEra : ℕ)
    (strategy : DisableStrategy) (details : OffenceDetails Account) (fraction : Perbill) :
    SlashParams Account where
  toInspection := inspectionAt config.bondingDuration activeEra slashEra state.slashRewardFraction
  stash := details.offender
  slash := fraction
  exposure := details.exposure
  disableStrategy := strategy

/-- Compute the slash of one offender and apply or defer it. -/
def reportOffender (state : OffenceState config) (activeEra slashEra : ℕ)
    (strategy : DisableStrategy) (details : OffenceDetails Account) (fraction : Perbill) :
    OffenceState config × List (SlashReceipt Account) :=
  if details.offender ∈ state.invulnerables then (state, [])
  else
    match computeSlash state (slashParams state activeEra slashEra strategy details fraction) with
    | (state, none) => (state, [])
    | (state, some unapplied) =>
      let unapplied := { unapplied with reporters := details.reporters }
      if config.slashDeferDuration = 0 then
        (applySlash state unapplied slashEra, [.applied activeEra slashEra unapplied])
      else (deferSlash state activeEra unapplied, [.deferred activeEra unapplied])

/-- Report offenders one after the other. -/
def reportOffenders (activeEra slashEra : ℕ) (strategy : DisableStrategy) :
    List (OffenceDetails Account × Perbill) → OffenceState config →
      OffenceState config × List (SlashReceipt Account)
  | [], state => (state, [])
  | (details, fraction) :: rest, state =>
    let (state, out) := reportOffender state activeEra slashEra strategy details fraction
    let (state, more) := reportOffenders activeEra slashEra strategy rest state
    (state, out ++ more)

/-- `on_offence`: offences before the bonding period are dropped. -/
def onOffence (state : OffenceState config) (offenders : List (OffenceDetails Account))
    (slashFraction : List Perbill) (slashSession : ℕ) (strategy : DisableStrategy) :
    OffenceState config × List (SlashReceipt Account) :=
  match state.activeEra with
  | none => (state, [])
  | some active =>
    match slashEraOf state active.index slashSession with
    | none => (state, [])
    | some slashEra =>
      let state := { state with
        earliestUnappliedSlash := some (state.earliestUnappliedSlash.getD active.index) }
      reportOffenders active.index slashEra strategy (offenders.zip slashFraction) state

/-! ## Eras and cancellations -/

/-- Apply the slashes that wait since an era, in order. -/
def applyEra (now era : ℕ) :
    List (UnappliedSlash Account) → OffenceState config →
      OffenceState config × List (SlashReceipt Account)
  | [], state => (state, [])
  | unapplied :: rest, state =>
    let (state, out) := applyEra now era rest (applySlash state unapplied era)
    (state, .applied now era unapplied :: out)

/-- `UnappliedSlashes::take`, as far as it removes. -/
def takeUnapplied (state : OffenceState config) (era : ℕ) : OffenceState config :=
  { state with unappliedSlashes := Function.update state.unappliedSlashes era [] }

/-- Take and apply the slashes of some eras in a row. -/
def applyEras (now : ℕ) : ℕ → ℕ → OffenceState config →
    OffenceState config × List (SlashReceipt Account)
  | _, 0, state => (state, [])
  | era, count + 1, state =>
    let (state, out) := applyEra now era (state.unappliedSlashes era) (takeUnapplied state era)
    let (state, more) := applyEras now (era + 1) count state
    (state, out ++ more)

/-- Apply previously-unapplied slashes on the beginning of a new era, after a delay. -/
def applyUnappliedSlashes (state : OffenceState config) (activeEra : ℕ) :
    OffenceState config × List (SlashReceipt Account) :=
  match state.earliestUnappliedSlash with
  | none => (state, [])
  | some earliest =>
    let keepFrom := activeEra - config.slashDeferDuration
    let (state, out) := applyEras activeEra earliest (keepFrom - earliest) state
    ({ state with earliestUnappliedSlash := some (max earliest keepFrom) }, out)

/-- Clear slashing metadata for an obsolete era. -/
def clearEraMetadata (state : OffenceState config) (obsoleteEra : ℕ) : OffenceState config :=
  { state with
    validatorSlashInEra := Function.update state.validatorSlashInEra obsoleteEra fun _ => none
    nominatorSlashInEra := Function.update state.nominatorSlashInEra obsoleteEra fun _ => none }

/-- Note the era that starts, and forget those from before the bonding period. -/
def pushBondedEra (state : OffenceState config) (activeEra startSession : ℕ) :
    OffenceState config :=
  let bonded := state.bondedEras ++ [(activeEra, startSession)]
  if config.bondingDuration < activeEra then
    let firstKept := activeEra - config.bondingDuration
    let obsolete := bonded.takeWhile (·.1 < firstKept)
    { obsolete.foldl (fun state entry => clearEraMetadata state entry.1) state with
      bondedEras := bonded.drop obsolete.length }
  else { state with bondedEras := bonded }

/-- Start the next era: note it for bonding and apply what has waited long enough. -/
def startEraSlashing (state : OffenceState config) (startSession : ℕ) :
    OffenceState config × List (SlashReceipt Account) :=
  let activeEra := state.nextActiveEra
  let state := { state with toEraStorage := startEra state.toEraStorage }
  let state := pushBondedEra state activeEra startSession
  let (state, out) := applyUnappliedSlashes state activeEra
  (state, .started activeEra startSession :: out)

/-- Disable those that have been disabled for the whole era. -/
def disableOffenders (state : OffenceState config) : OffenceState config :=
  { state with
    disabled := state.disabled ∪
      ((state.offendingValidators.filter (·.2)).map (·.1)).toFinset }

/-- Whether a session starts the next era; it may come late. -/
def EraStorage.StartsEra (eras : EraStorage Account) (session : ℕ) : Prop :=
  ∃ start ∈ eras.erasStartSessionIndex eras.nextActiveEra, start ≤ session

instance (eras : EraStorage Account) (session : ℕ) : Decidable (eras.StartsEra session) :=
  inferInstanceAs (Decidable (∃ start ∈ eras.erasStartSessionIndex eras.nextActiveEra, _))

/-- Start a session, potentially starting an era. -/
def startSessionSlashing (state : OffenceState config) (session : ℕ) :
    OffenceState config × List (SlashReceipt Account) :=
  let (state, out) :=
    if state.toEraStorage.StartsEra session then startEraSlashing state session else (state, [])
  (disableOffenders state, out)

/-- End a session. An era that ends, unless it never saw a block, clears its offenders. -/
def endSessionSlashing (state : OffenceState config) (session : ℕ) : OffenceState config :=
  let offendingValidators := match state.endingEra session with
    | some ⟨_, some _⟩ => []
    | _ => state.offendingValidators
  { state with
    toState := endSession state.toState session
    offendingValidators }

/-- What the session pallet does between the end of a session and the start of the next. -/
structure Rotation (Account : Type) where
  validators : List Account
  /-- The disabled validators that it keeps. -/
  disabled : Finset ℕ

/-- Rotate the session: end it, start the next one, and plan the one after. -/
def rotateSessionSlashing (state : OffenceState config) (session : ℕ) (rotation : Rotation Account)
    (election : Option (Supports Account)) : OffenceState config × List (SlashReceipt Account) :=
  let state := endSessionSlashing state session
  let state := { state with
    sessionIndex := some (session + 1)
    sessionValidators := rotation.validators
    disabled := rotation.disabled }
  let (state, out) := startSessionSlashing state (session + 1)
  ({ state with toState := newSession state.toState (session + 2) election }, out)

/-- `is_sorted_and_unique`. -/
def isSortedAndUnique : List ℕ → Bool
  | [] => true
  | [_] => true
  | first :: second :: rest => first < second && isSortedAndUnique (second :: rest)

/-- Why an offence call is refused. -/
inductive OffenceError
  | staking (error : Error)
  | role (error : CallError)
  | emptyTargets
  | notSortedAndUnique
  | invalidSlashIndex
  /-- The environment does nothing of the kind. -/
  | misplaced
deriving DecidableEq

/-- Cancel the enactment of deferred slashes, with those that went. -/
def cancelDeferredSlash (state : OffenceState config) (era : ℕ) (slashIndices : List ℕ) :
    Except OffenceError (OffenceState config × List (SlashReceipt Account)) := do
  ensure (slashIndices ≠ []) .emptyTargets
  ensure (isSortedAndUnique slashIndices = true) .notSortedAndUnique
  let unapplied := state.unappliedSlashes era
  ensure (slashIndices.getLastD 0 < unapplied.length) .invalidSlashIndex
  return ({ state with
      unappliedSlashes := Function.update state.unappliedSlashes era
        (removeShifted 0 slashIndices unapplied) },
    slashIndices.filterMap fun index => (unapplied[index]?).map (.cancelled era ·))

/-- Remove all associated data of a stash, its roles and its slashing metadata included. -/
def killStashSlashing (state : OffenceState config) (stash : Account) (numSlashingSpans : ℕ) :
    Except Error (OffenceState config) := do
  let after ← killAndUnlock state.toState stash numSlashingSpans
  let book ← (state.books stash).clear numSlashingSpans
  return { state with
    toRoleState := { chillStash state.toRoleState stash with toState := after }
    books := Function.update state.books stash book }

/-! ## The system of offences -/

/-- One step of the chain, as far as offences see it. -/
inductive OffenceCall (config : SlashConfig Account)
  | genesisSession (first second : Option (Supports Account)) (rotation : Rotation Account)
  | rotateSession (rotation : Rotation Account) (election : Option (Supports Account))
  | onFinalize (now : ℕ)
  | setHistoryDepth (newHistoryDepth : UInt32)
  | onOffence (offenders : List (OffenceDetails Account)) (slashFraction : List Perbill)
      (slashSession : ℕ) (strategy : DisableStrategy)
  | cancelDeferredSlash (era : ℕ) (slashIndices : List ℕ)
  | killStash (stash : Account) (numSlashingSpans : ℕ)
  | setSlashRewardFraction (fraction : Perbill)
  | setInvulnerables (invulnerables : List Account)
  /-- Whatever other calls do to balances, stakers, roles and the rewards of eras. -/
  | outside (change : RoleState config.toConfig)

/-- Plan sessions zero and one, and start session zero. -/
def genesisSessionSlashing (state : OffenceState config) (rotation : Rotation Account)
    (first second : Option (Supports Account)) :
    OffenceState config × List (SlashReceipt Account) :=
  let chain := newSession (newSession state.toState 0 first) 1 second
  startSessionSlashing
    { state with
      toState := { chain with sessionIndex := some 0 }
      sessionValidators := rotation.validators
      disabled := rotation.disabled } 0

/-- Other calls move neither eras nor sessions, nor the spans of a stash. -/
def applyOutsideSlashing (state : OffenceState config) (change : RoleState config.toConfig) :
    OffenceState config :=
  { state with
    toRoleState := { change with
      historyDepth := state.historyDepth
      currentEra := state.currentEra
      activeEra := state.activeEra
      sessionIndex := state.sessionIndex
      erasStartSessionIndex := state.erasStartSessionIndex
      slashingSpans := state.slashingSpans } }

/-- One step of the system and the receipts it leaves. -/
def offenceStep (state : OffenceState config) : OffenceCall config →
    Except OffenceError (OffenceState config × List (SlashReceipt Account))
  | .genesisSession first second rotation =>
    match state.sessionIndex with
    | none => .ok (genesisSessionSlashing state rotation first second)
    | some _ => .error .misplaced
  | .rotateSession rotation election =>
    match state.sessionIndex with
    | none => .error .misplaced
    | some session => .ok (rotateSessionSlashing state session rotation election)
  | .onFinalize now =>
    .ok ({ state with toEraStorage := onFinalize state.toEraStorage now }, [])
  | .setHistoryDepth newHistoryDepth =>
    .ok ({ state with toEraStorage := setHistoryDepth state.toEraStorage newHistoryDepth }, [])
  | .onOffence offenders slashFraction slashSession strategy =>
    .ok (onOffence state offenders slashFraction slashSession strategy)
  | .cancelDeferredSlash era slashIndices => cancelDeferredSlash state era slashIndices
  | .killStash stash numSlashingSpans =>
    match killStashSlashing state stash numSlashingSpans with
    | .ok state => .ok (state, [])
    | .error error => .error (.staking error)
  | .setSlashRewardFraction fraction => .ok ({ state with slashRewardFraction := fraction }, [])
  | .setInvulnerables invulnerables => .ok ({ state with invulnerables }, [])
  | .outside change => .ok (applyOutsideSlashing state change, [])

/-- The offences of a chain as a machine. -/
def offenceSystem (config : SlashConfig Account) :
    Machine (OffenceState config) (OffenceCall config) OffenceError (SlashReceipt Account) :=
  ⟨offenceStep⟩

/-- The storage before genesis: no era, no session, and no offence. -/
structure OffenceState.Initial (state : OffenceState config) : Prop where
  chain : Staking.Initial state.toState
  books : ∀ stash, state.books stash = default
  validatorSlashInEra : ∀ era stash, state.validatorSlashInEra era stash = none
  nominatorSlashInEra : ∀ era stash, state.nominatorSlashInEra era stash = none
  offendingValidators : state.offendingValidators = []
  bondedEras : state.bondedEras = []
  earliestUnappliedSlash : state.earliestUnappliedSlash = none
  unappliedSlashes : ∀ era, state.unappliedSlashes era = []

/-- A state of the chain, with what happened to slashes on the way to it. -/
def OffenceReachable (state : OffenceState config) (log : List (SlashReceipt Account)) : Prop :=
  (offenceSystem config).Reachable OffenceState.Initial (fun _ => True) state log

theorem genesisOffences_initial {state : RoleState config.toConfig}
    (initial : Staking.Initial state.toState) :
    OffenceState.Initial (genesisOffences state : OffenceState config) :=
  ⟨initial, fun _ => rfl, fun _ _ => rfl, fun _ _ => rfl, rfl, rfl, rfl, fun _ => rfl⟩

/-! ## A small runtime -/

/-- The small runtime with slashes that are deferred by one era. -/
@[reducible] def smallSlashConfig : SlashConfig ℕ where
  toConfig := smallConfig
  slashDeferDuration := 1
  offendingValidatorsThreshold := .fromRational 17 100
  perquintill slash affected target := min target (slash * target / affected)
  perquintill_le _ _ _ := min_le_left _ _
  slash store who amount :=
    (store.put who (store.free who - amount), min (store.free who) amount, amount - store.free who)
  slash_split store who amount := by
    change min (store.free who) amount + (amount - store.free who) = amount
    omega
  slash_debits store who amount := by
    refine ⟨min (store.free who) amount, le_rfl, fun account => ?_, rfl⟩
    change store.free account = (store.put who _).free account + _
    rw [ReferenceCurrency.Balances.put_free]
    split_ifs with same
    · rw [same]
      omega
    · rfl
  treasury := 2

/-- The small runtime before genesis. -/
def smallOffences : OffenceState smallSlashConfig := genesisOffences (genesisRoles smallGenesis)

/-- Where the calls lead, if all of them happen. -/
def offenceOutcome (calls : List (OffenceCall smallSlashConfig)) :
    OffenceState smallSlashConfig × List (SlashReceipt ℕ) :=
  (offenceSystem smallSlashConfig).outcome smallOffences calls

theorem offenceOutcome_reachable (calls : List (OffenceCall smallSlashConfig))
    (happens : ((offenceSystem smallSlashConfig).replay smallOffences calls).isOk = true) :
    OffenceReachable (offenceOutcome calls).1 (offenceOutcome calls).2 :=
  Machine.outcome_reachable (genesisOffences_initial (genesisState_initial _ _))
    (fun _ _ => trivial) happens

/-- The session pallet keeps the four validators and re-enables all of them. -/
def sameQuartet : Rotation ℕ := ⟨[10, 11, 12, 13], ∅⟩

/-- Two validators are reported in era zero and one of the slashes is cancelled; two eras later the
other is applied. -/
def deferAndCancel : List (OffenceCall smallSlashConfig) :=
  [.genesisSession (some quartet) (some quartet) sameQuartet, .onFinalize 5,
    .onOffence
      [⟨10, ⟨50, 40, [⟨20, 10⟩], by decide⟩, [30]⟩, ⟨11, ⟨50, 40, [⟨20, 10⟩], by decide⟩, [30]⟩]
      [.fromRational 1 10, .fromRational 1 5] 0 .whenSlashed,
    .cancelDeferredSlash 0 [1], .rotateSession sameQuartet (some quartet), .onFinalize 6,
    .rotateSession sameQuartet (some quartet)]

end GlitchRuntime.Staking

import GlitchRuntime.Lib.Simulation
import GlitchRuntime.Staking.BondedEras

/-! # Slashing spans in the system of offences

Whatever the system of offences does to the slashing metadata of stashes, the machine of all books
does as well: reports inspect the offender and its nominators one after the other, eras go by as
they start, and a dead stash is cleared. So what holds of every reachable book holds on the chain.
-/

namespace GlitchRuntime.Staking

open Lib SlashReceipt

variable {Account : Type} [DecidableEq Account] {config : SlashConfig Account}

/-- The books of a state, with the active era. -/
def OffenceState.bookState (state : OffenceState config) : BookState Account where
  books := state.books
  activeEra := (state.activeEra.map (·.index)).getD 0

/-- The machine of all books of a runtime. -/
abbrev bookMachine (config : SlashConfig Account) :
    Machine (BookState Account) (BookCall Account) (Option Error) (BookReceipt Account) :=
  bookSystem Account config.bondingDuration

/-! ## Steps on one book -/

/-- That an inspection is one of the active era, for it or an earlier one. -/
structure Inspection.Opened (inspection : Inspection) (config : SlashConfig Account)
    (activeEra : ℕ) : Prop where
  opened : inspection = inspectionAt config.bondingDuration activeEra inspection.slashEra
    inspection.rewardProportion
  before : inspection.slashEra ≤ activeEra

/-- An inspection with a slash is a step on the book of a stash. -/
theorem leads_slash {state : OffenceState config} {inspection : Inspection}
    (opened : inspection.Opened config state.bookState.activeEra) (stash : Account) (slash : ℕ) :
    (bookMachine config).Leads state.bookState
      (putBook state stash ((state.books stash).slashInSpan inspection slash).book).bookState := by
  have taken : (bookMachine config).step state.bookState
      (.slash stash inspection.slashEra slash inspection.rewardProportion) = .ok
        ((putBook state stash ((state.books stash).slashInSpan inspection slash).book).bookState,
          [⟨stash, some (.ofFinding inspection slash
            ((state.books stash).slashInSpan inspection slash))⟩]) := by
    change (if _ then _ else _) = _
    rw [if_pos opened.before, ← opened.opened]
    rfl
  exact .single taken

/-- An inspection without one is a step on the book of a stash. -/
theorem leads_kick {state : OffenceState config} {inspection : Inspection}
    (opened : inspection.Opened config state.bookState.activeEra) (stash : Account) :
    (bookMachine config).Leads state.bookState
      (putBook state stash ((state.books stash).kickOutIfRecent inspection).1).bookState := by
  have same : (state.books stash).kickOutIfRecent (inspectionAt config.bondingDuration
      state.bookState.activeEra inspection.slashEra 0) =
        (state.books stash).kickOutIfRecent inspection := by
    rw [opened.opened]
    rfl
  have taken : (bookMachine config).step state.bookState (.kick stash inspection.slashEra) = .ok
      ((putBook state stash ((state.books stash).kickOutIfRecent inspection).1).bookState,
        [⟨stash, some (.ofKick (inspectionAt config.bondingDuration state.bookState.activeEra
          inspection.slashEra 0) ((state.books stash).kickOutIfRecent inspection).2)⟩]) := by
    have step : (bookMachine config).step state.bookState (.kick stash inspection.slashEra) =
        if inspection.slashEra ≤ state.bookState.activeEra then
          let kicked := (state.books stash).kickOutIfRecent (inspectionAt config.bondingDuration
            state.bookState.activeEra inspection.slashEra 0)
          .ok (⟨Function.update state.books stash kicked.1, state.bookState.activeEra⟩,
            [⟨stash, some (.ofKick (inspectionAt config.bondingDuration state.bookState.activeEra
              inspection.slashEra 0) kicked.2)⟩])
        else .error none := rfl
    rw [step, if_pos opened.before, same]
    rfl
  exact .single taken

/-! ## What leaves the books alone -/

theorem chillOffender_books (state : OffenceState config) (stash : Account) :
    (chillOffender state stash).bookState = state.bookState := by
  unfold chillOffender chillStash doRemoveNominator doRemoveValidator
  split_ifs <;> rfl

theorem addOffendingValidator_books (state : OffenceState config) (stash : Account)
    (disable : Bool) : (addOffendingValidator state stash disable).bookState = state.bookState := by
  unfold addOffendingValidator ensureNewEra disableValidator
  dsimp only
  repeat' split
  all_goals rfl

theorem doSlash_books (state : OffenceState config) (collected : Collected) (slashEra : ℕ)
    (entry : Account × ℕ) :
    (doSlash state collected slashEra entry).1.bookState = state.bookState := by
  unfold doSlash
  dsimp only
  repeat' split
  all_goals rfl

theorem applySlash_books (state : OffenceState config) (unapplied : UnappliedSlash Account)
    (slashEra : ℕ) : (applySlash state unapplied slashEra).bookState = state.bookState := by
  have applied : ∀ (entries : List (Account × ℕ)) (state : OffenceState config)
      (collected : Collected),
      (doSlashes slashEra entries state collected).1.bookState = state.bookState := by
    intro entries
    induction entries with
    | nil => intro state collected; rfl
    | cons entry rest ih =>
      intro state collected
      simp only [doSlashes]
      rw [ih, doSlash_books]
  unfold applySlash
  exact applied unapplied.entries state _

theorem applyEras_books (now era count : ℕ) (state : OffenceState config) :
    (applyEras now era count state).1.bookState = state.bookState := by
  have applied : ∀ (era : ℕ) (waiting : List (UnappliedSlash Account)) (state : OffenceState config),
      (applyEra now era waiting state).1.bookState = state.bookState := by
    intro era waiting
    induction waiting with
    | nil => intro state; rfl
    | cons unapplied rest ih =>
      intro state
      simp only [applyEra]
      rw [ih, applySlash_books]
  induction count generalizing era state with
  | zero => rfl
  | succ count ih =>
    simp only [applyEras]
    rw [ih, applied]
    rfl

/-! ## Reports -/

theorem leads_slashNominators {params : SlashParams Account}
    (others : List (IndividualExposure Account)) (prior : Perbill) (state : OffenceState config)
    (opened : params.toInspection.Opened config state.bookState.activeEra) :
    (bookMachine config).Leads state.bookState
      (slashNominators params prior others state).1.bookState := by
  induction others generalizing state with
  | nil => exact .refl _
  | cons nominator rest ih =>
    have first : (bookMachine config).Leads state.bookState
        (slashNominator state params prior nominator).1.bookState :=
      @leads_slash _ _ _ (raiseEraSlash state params prior nominator).1 _ opened nominator.who _
    exact first.trans (ih (slashNominator state params prior nominator).1 opened)

theorem leads_slashValidator {params : SlashParams Account} {state : OffenceState config}
    (opened : params.toInspection.Opened config state.bookState.activeEra) :
    (bookMachine config).Leads state.bookState (slashValidator state params).1.bookState := by
  have inspected := leads_slash opened params.stash (params.slash.mul params.exposure.own)
  unfold slashValidator
  dsimp only
  split_ifs
  · rw [chillOffender_books]
    exact inspected
  · exact inspected

/-- Computing a slash inspects the offender and then its nominators. -/
theorem leads_computeSlash {params : SlashParams Account} {state : OffenceState config}
    (opened : params.toInspection.Opened config state.bookState.activeEra) :
    (bookMachine config).Leads state.bookState (computeSlash state params).1.bookState := by
  unfold computeSlash
  dsimp only
  split_ifs
  · unfold kickOutIfRecent
    dsimp only
    rw [addOffendingValidator_books]
    split_ifs
    · rw [chillOffender_books]
      exact leads_kick opened params.stash
    · exact leads_kick opened params.stash
  · let noted : OffenceState config := { state with
      validatorSlashInEra := Function.update state.validatorSlashInEra params.slashEra
        (Function.update (state.validatorSlashInEra params.slashEra) params.stash
          (some (params.slash, params.slash.mul params.exposure.own))) }
    have era : (slashValidator noted params).1.bookState.activeEra = state.bookState.activeEra := by
      have frame := slashValidator_frame noted params
      exact congrArg (fun frame => (frame.2.activeEra).getD 0) frame
    have own : (bookMachine config).Leads state.bookState
        (slashValidator noted params).1.bookState :=
      @leads_slashValidator _ _ _ params noted opened
    refine own.trans ?_
    rw [← addOffendingValidator_books _ params.stash (params.disableStrategy ≠ .never)] at era ⊢
    exact leads_slashNominators _ _ _ (era ▸ opened)
  · exact .refl _

theorem leads_reportOffender {activeEra slashEra : ℕ} (strategy : DisableStrategy)
    (details : OffenceDetails Account) (fraction : Perbill) {state : OffenceState config}
    (active : state.bookState.activeEra = activeEra) (before : slashEra ≤ activeEra) :
    (bookMachine config).Leads state.bookState
      (reportOffender state activeEra slashEra strategy details fraction).1.bookState := by
  have opened : (slashParams state activeEra slashEra strategy details
      fraction).toInspection.Opened config state.bookState.activeEra := by
    rw [active]
    exact ⟨rfl, before⟩
  have computed := leads_computeSlash opened
  unfold reportOffender
  by_cases spared : details.offender ∈ state.invulnerables
  · rw [if_pos spared]
    exact .refl _
  rw [if_neg spared]
  split
  · next after same =>
    rw [same] at computed
    exact computed
  · next after unapplied same =>
    rw [same] at computed
    dsimp only
    split_ifs
    · rw [applySlash_books]
      exact computed
    · exact computed

theorem leads_reportOffenders {activeEra slashEra : ℕ} (strategy : DisableStrategy)
    (offenders : List (OffenceDetails Account × Perbill)) {state : OffenceState config}
    (active : state.bookState.activeEra = activeEra) (before : slashEra ≤ activeEra) :
    (bookMachine config).Leads state.bookState
      (reportOffenders activeEra slashEra strategy offenders state).1.bookState := by
  induction offenders generalizing state with
  | nil => exact .refl _
  | cons offender rest ih =>
    simp only [reportOffenders]
    have first := leads_reportOffender strategy offender.1 offender.2 active before
    have clock := (reportOffender_reports state activeEra slashEra strategy offender.1
      offender.2).clock.1
    have era := congrArg (fun active : Option ℕ => active.getD 0) clock
    exact first.trans (ih (era.trans active))

/-! ## Eras -/

theorem pushBondedEra_books (state : OffenceState config) (activeEra session : ℕ) :
    (pushBondedEra state activeEra session).bookState = state.bookState := by
  have cleared : ∀ (entries : List (ℕ × ℕ)) (state : OffenceState config),
      (entries.foldl (fun state entry => clearEraMetadata state entry.1) state).bookState =
        state.bookState := by
    intro entries
    induction entries with
    | nil => intro state; rfl
    | cons entry rest ih =>
      intro state
      rw [List.foldl_cons, ih]
      rfl
  unfold pushBondedEra
  dsimp only
  split_ifs
  · exact cleared _ state
  · rfl

/-- An era that starts is the next one for the books, unless it is the first. -/
theorem leads_startSession (state : OffenceState config) (session : ℕ) :
    (bookMachine config).Leads state.bookState
      (startSessionSlashing state session).1.bookState := by
  have next : (bookMachine config).Leads state.bookState
      ⟨state.books, state.nextActiveEra⟩ := by
    unfold OffenceState.bookState EraStorage.nextActiveEra
    cases state.activeEra with
    | none => exact .refl _
    | some info =>
      have taken : (bookMachine config).step ⟨state.books, info.index⟩ .nextEra =
        .ok (⟨state.books, info.index + 1⟩, []) := rfl
      exact .single taken
  unfold startSessionSlashing
  dsimp only
  change (bookMachine config).Leads state.bookState
    (if _ then startEraSlashing state session else (state, [])).1.bookState
  split_ifs
  · have started : (startEraSlashing state session).1.bookState =
        ⟨state.books, state.nextActiveEra⟩ := by
      have pushed := pushBondedEra_books { state with toEraStorage := startEra state.toEraStorage }
        state.nextActiveEra session
      unfold startEraSlashing applyUnappliedSlashes
      dsimp only
      split
      · exact pushed
      · exact (applyEras_books ..).trans pushed
    rw [started]
    exact next
  · exact .refl _

theorem newSession_books (state : OffenceState config) (session : ℕ)
    (election : Option (Supports Account)) :
    ({ state with toState := newSession state.toState session election } :
      OffenceState config).bookState = state.bookState := by
  obtain ⟨active, -⟩ := (newSession_planned state.toState session election).starts
  unfold OffenceState.bookState
  rw [BookState.mk.injEq]
  exact ⟨rfl, congrArg (fun active => (active.map (·.index)).getD 0) active⟩

theorem leads_genesisSession (state : OffenceState config) (rotation : Rotation Account)
    (first second : Option (Supports Account)) :
    (bookMachine config).Leads state.bookState
      (genesisSessionSlashing state rotation first second).1.bookState := by
  let planned : OffenceState config := { state with toState := newSession state.toState 0 first }
  let replanned : OffenceState config := { planned with
    toState := newSession planned.toState 1 second }
  let opened : OffenceState config := { replanned with
    sessionIndex := some 0
    sessionValidators := rotation.validators
    disabled := rotation.disabled }
  have books : opened.bookState = state.bookState :=
    (newSession_books planned 1 second).trans (newSession_books state 0 first)
  rw [← books]
  exact leads_startSession opened 0

theorem leads_rotateSession (state : OffenceState config) (session : ℕ)
    (rotation : Rotation Account) (election : Option (Supports Account)) :
    (bookMachine config).Leads state.bookState
      (rotateSessionSlashing state session rotation election).1.bookState := by
  let opened : OffenceState config := { endSessionSlashing state session with
    sessionIndex := some (session + 1)
    sessionValidators := rotation.validators
    disabled := rotation.disabled }
  have books : opened.bookState = state.bookState := by
    unfold OffenceState.bookState
    rw [BookState.mk.injEq]
    exact ⟨rfl, congrArg (fun active => (active.map (·.index)).getD 0)
      (endSession_clock state.toState session).1⟩
  unfold rotateSessionSlashing
  dsimp only
  rw [newSession_books, ← books]
  exact leads_startSession opened (session + 1)

/-! ## Every step -/

/-- An offence is never slashed for an era that is still to come. -/
theorem OffenceReachable.slashEra_le {state : OffenceState config}
    {log : List (SlashReceipt Account)} (reached : OffenceReachable state log)
    {active : ActiveEraInfo} (isActive : state.activeEra = some active) {slashSession slashEra : ℕ}
    (found : slashEraOf state active.index slashSession = some slashEra) :
    slashEra ≤ active.index := by
  have inv := reached.bondedInv
  have length : (startedIn log).length = active.index + 1 := by
    rw [← inv.next]
    change ((state.activeEra.map (·.index)).map (· + 1)).getD 0 = _
    rw [isActive]
    rfl
  unfold slashEraOf at found
  split_ifs at found
  · exact (Option.some.inj found).ge
  · obtain ⟨entry, isEntry, rfl⟩ := Option.map_eq_some_iff.mp found
    have member := List.mem_reverse.mp (List.mem_of_find?_eq_some isEntry)
    have bonded : state.bondedEras = _ := inv.bonded
    rw [bonded] at member
    have started := List.mem_map_of_mem (f := (·.1)) (List.mem_of_mem_drop member)
    rw [inv.counting, List.mem_range, length] at started
    exact Nat.lt_succ_iff.mp started

/-- The books follow every step. -/
theorem leads_offenceStep {before after : OffenceState config} {call : OffenceCall config}
    {log out : List (SlashReceipt Account)} (reached : OffenceReachable before log)
    (taken : offenceStep before call = .ok (after, out)) :
    (bookMachine config).Leads before.bookState after.bookState := by
  cases call with
  | genesisSession first second rotation =>
    simp only [offenceStep] at taken
    split at taken
    · next fresh =>
      obtain ⟨rfl, rfl⟩ := Prod.mk.inj (Except.ok.inj taken)
      exact leads_genesisSession before rotation first second
    · contradiction
  | rotateSession rotation election =>
    simp only [offenceStep] at taken
    split at taken
    · contradiction
    · next session index =>
      obtain ⟨rfl, rfl⟩ := Prod.mk.inj (Except.ok.inj taken)
      exact leads_rotateSession before session rotation election
  | onFinalize now =>
    obtain ⟨rfl, rfl⟩ := Prod.mk.inj (Except.ok.inj taken)
    have same : ({ before with toEraStorage := onFinalize before.toEraStorage now } :
        OffenceState config).bookState = before.bookState := by
      unfold OffenceState.bookState onFinalize
      dsimp only
      split
      · next index active =>
        rw [active]
        rfl
      · rfl
    rw [same]
    exact .refl _
  | setHistoryDepth depth =>
    obtain ⟨rfl, rfl⟩ := Prod.mk.inj (Except.ok.inj taken)
    have same : ({ before with toEraStorage := setHistoryDepth before.toEraStorage depth } :
        OffenceState config).bookState = before.bookState := by
      unfold OffenceState.bookState setHistoryDepth
      dsimp only
      split
      · rfl
      · next current planned =>
        obtain ⟨-, -, -, active, -⟩ := clearEras_spec before.toEraStorage
          (before.firstEra current) (current - depth.toNat - before.firstEra current)
        dsimp only
        rw [active]
    rw [same]
    exact .refl _
  | onOffence offenders fractions slashSession strategy =>
    simp only [offenceStep, Except.ok.injEq] at taken
    unfold onOffence at taken
    split at taken
    · obtain ⟨rfl, rfl⟩ := Prod.mk.inj taken
      exact .refl _
    · next active present =>
      split at taken
      · obtain ⟨rfl, rfl⟩ := Prod.mk.inj taken
        exact .refl _
      · next slashEra found =>
        let opened : OffenceState config := { before with
          earliestUnappliedSlash := some (before.earliestUnappliedSlash.getD active.index) }
        have era : opened.bookState.activeEra = active.index := by
          change (before.activeEra.map (·.index)).getD 0 = _
          rw [present]
          rfl
        have leads := leads_reportOffenders strategy (offenders.zip fractions) era
          (reached.slashEra_le present found)
        rw [taken] at leads
        exact leads
  | cancelDeferredSlash era indices =>
    obtain ⟨-, -, rfl, -⟩ := cancelDeferredSlash_ok taken
    exact .refl _
  | killStash stash spans =>
    simp only [offenceStep] at taken
    split at taken
    · next killed success =>
      obtain ⟨rfl, rfl⟩ := Prod.mk.inj (Except.ok.inj taken)
      simp only [killStashSlashing, bind_eq_ok, pure_eq_ok] at success
      obtain ⟨chain, done, book, cleared, rfl⟩ := success
      have eras := (killAndUnlock_move done).eras
      have step : (bookMachine config).step before.bookState (.clear stash spans) =
          .ok (⟨Function.update before.books stash book, before.bookState.activeEra⟩,
            [⟨stash, none⟩]) := by
        have books : (before.bookState.books stash).clear spans = .ok book := cleared
        simp only [bookSystem, bookStep, books]
        rfl
      have same : (⟨Function.update before.books stash book, before.bookState.activeEra⟩ :
          BookState Account) = ⟨Function.update before.books stash book,
            (chain.activeEra.map (·.index)).getD 0⟩ := by
        rw [BookState.mk.injEq]
        exact ⟨rfl, congrArg (fun eras => (eras.activeEra.map (·.index)).getD 0) eras.symm⟩
      rw [same] at step
      exact .single step
    · contradiction
  | setSlashRewardFraction fraction =>
    obtain ⟨rfl, rfl⟩ := Prod.mk.inj (Except.ok.inj taken)
    exact .refl _
  | setInvulnerables invulnerables =>
    obtain ⟨rfl, rfl⟩ := Prod.mk.inj (Except.ok.inj taken)
    exact .refl _
  | outside change =>
    obtain ⟨rfl, rfl⟩ := Prod.mk.inj (Except.ok.inj taken)
    exact .refl _

/-- Whatever the chain reaches, the machine of all books reaches. -/
theorem OffenceReachable.booksReachable {state : OffenceState config} {log : List (SlashReceipt Account)}
    (reached : OffenceReachable state log) :
    ∃ receipts, BooksReachable config.bondingDuration state.bookState receipts := by
  apply Machine.Reachable.simulated OffenceState.bookState reached
  · intro source initial
    exact initial.books
  · intro current next log out call before _ taken
    exact leads_offenceStep before taken

theorem deferAndCancel_books :
    ((offenceOutcome deferAndCancel).1.books 20).spans.isSome = true ∧
    ∃ receipts, BooksReachable smallSlashConfig.bondingDuration
      (offenceOutcome deferAndCancel).1.bookState receipts := by
  have reached := offenceOutcome_reachable deferAndCancel (by decide +kernel)
  exact ⟨by decide +kernel, reached.booksReachable⟩

end GlitchRuntime.Staking

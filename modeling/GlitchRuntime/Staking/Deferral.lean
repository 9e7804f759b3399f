import GlitchRuntime.Staking.Effects
import GlitchRuntime.Staking.Offences

/-! # Deferred slashes over a run

Slashes wait in a queue by the era they were reported in. Nothing but a report adds to it, nothing
but a cancellation takes from its middle, and every slash that is not cancelled is applied once,
when the era starts that is one past its delay. The eras of the bonding period are kept in order
with it.
-/

namespace GlitchRuntime.Staking

open Lib

variable {Account : Type} [DecidableEq Account] {config : SlashConfig Account}

/-- The part of the storage that decides when slashes are applied. -/
structure SlashQueue (Account : Type) where
  activeEra : Option ℕ
  session : Option ℕ
  bondedEras : List (ℕ × ℕ)
  earliest : Option ℕ
  unapplied : ℕ → List (UnappliedSlash Account)

/-- The queue of a state. -/
def OffenceState.queue (state : OffenceState config) : SlashQueue Account where
  activeEra := state.activeEra.map (·.index)
  session := state.sessionIndex
  bondedEras := state.bondedEras
  earliest := state.earliestUnappliedSlash
  unapplied := state.unappliedSlashes

/-- How far eras and sessions are. -/
structure EraClock where
  historyDepth : UInt32
  currentEra : Option ℕ
  activeEra : Option ℕ
  sessionIndex : Option ℕ
  erasStartSessionIndex : ℕ → Option ℕ

/-- The clock of the storage about eras. -/
def EraStorage.clock {Account : Type} (eras : EraStorage Account) : EraClock where
  historyDepth := eras.historyDepth
  currentEra := eras.currentEra
  activeEra := eras.activeEra.map (·.index)
  sessionIndex := eras.sessionIndex
  erasStartSessionIndex := eras.erasStartSessionIndex

/-- What neither computing nor applying a slash touches. -/
def OffenceState.frame (state : OffenceState config) : SlashQueue Account × EraClock :=
  (state.queue, state.toEraStorage.clock)

/-! ## What slashing leaves alone -/

@[simp] theorem chillOffender_frame (state : OffenceState config) (stash : Account) :
    (chillOffender state stash).frame = state.frame := by
  unfold chillOffender chillStash doRemoveNominator doRemoveValidator
  split_ifs <;> rfl

@[simp] theorem addOffendingValidator_frame (state : OffenceState config) (stash : Account)
    (disable : Bool) : (addOffendingValidator state stash disable).frame = state.frame := by
  unfold addOffendingValidator ensureNewEra disableValidator
  dsimp only
  repeat' split
  all_goals rfl

@[simp] theorem kickOutIfRecent_frame (state : OffenceState config)
    (params : SlashParams Account) : (kickOutIfRecent state params).frame = state.frame := by
  unfold kickOutIfRecent
  rw [addOffendingValidator_frame]
  split_ifs
  · rw [chillOffender_frame]
    rfl
  · rfl

@[simp] theorem slashNominators_frame (params : SlashParams Account) (prior : Perbill)
    (others : List (IndividualExposure Account)) (state : OffenceState config) :
    (slashNominators params prior others state).1.frame = state.frame := by
  induction others generalizing state with
  | nil => rfl
  | cons nominator rest ih =>
    simp only [slashNominators]
    rw [ih]
    rfl

@[simp] theorem slashValidator_frame (state : OffenceState config) (params : SlashParams Account) :
    (slashValidator state params).1.frame = state.frame := by
  unfold slashValidator
  dsimp only
  split_ifs
  · rw [chillOffender_frame]
    rfl
  · rfl

/-- Computing a slash defers nothing yet. -/
theorem computeSlash_frame (state : OffenceState config) (params : SlashParams Account) :
    (computeSlash state params).1.frame = state.frame := by
  unfold computeSlash
  dsimp only
  split_ifs
  · exact kickOutIfRecent_frame state params
  · rw [slashNominators_frame, addOffendingValidator_frame, slashValidator_frame]
    rfl
  · rfl

@[simp] theorem doSlash_frame (state : OffenceState config) (collected : Collected)
    (slashEra : ℕ) (entry : Account × ℕ) :
    (doSlash state collected slashEra entry).1.frame = state.frame := by
  unfold doSlash
  dsimp only
  repeat' split
  all_goals rfl

@[simp] theorem doSlashes_frame (slashEra : ℕ) (entries : List (Account × ℕ))
    (state : OffenceState config) (collected : Collected) :
    (doSlashes slashEra entries state collected).1.frame = state.frame := by
  induction entries generalizing state collected with
  | nil => rfl
  | cons entry rest ih =>
    simp only [doSlashes]
    rw [ih, doSlash_frame]

/-- Applying a slash takes nothing from the queue. -/
@[simp] theorem applySlash_frame (state : OffenceState config)
    (unapplied : UnappliedSlash Account) (slashEra : ℕ) :
    (applySlash state unapplied slashEra).frame = state.frame := by
  unfold applySlash
  exact doSlashes_frame slashEra unapplied.entries state _

theorem computeSlash_queue (state : OffenceState config) (params : SlashParams Account) :
    (computeSlash state params).1.queue = state.queue :=
  congrArg Prod.fst (computeSlash_frame state params)

theorem applySlash_queue (state : OffenceState config) (unapplied : UnappliedSlash Account)
    (slashEra : ℕ) : (applySlash state unapplied slashEra).queue = state.queue :=
  congrArg Prod.fst (applySlash_frame state unapplied slashEra)

/-! ## What a log says about an era -/

namespace SlashReceipt

/-- The slashes that were deferred in an era. -/
def deferredIn (log : List (SlashReceipt Account)) (era : ℕ) : List (UnappliedSlash Account) :=
  log.filterMap fun
    | .deferred other unapplied => if other = era then some unapplied else none
    | _ => none

/-- The slashes of an era that were applied. -/
def appliedIn (log : List (SlashReceipt Account)) (era : ℕ) : List (UnappliedSlash Account) :=
  log.filterMap fun
    | .applied _ other unapplied => if other = era then some unapplied else none
    | _ => none

/-- The slashes of an era that were cancelled. -/
def cancelledIn (log : List (SlashReceipt Account)) (era : ℕ) : List (UnappliedSlash Account) :=
  log.filterMap fun
    | .cancelled other unapplied => if other = era then some unapplied else none
    | _ => none

/-- The eras that started, each with its session. -/
def startedIn (log : List (SlashReceipt Account)) : List (ℕ × ℕ) :=
  log.filterMap fun
    | .started era session => some (era, session)
    | _ => none

variable {Account : Type} (first second : List (SlashReceipt Account)) (era : ℕ)

@[simp] theorem deferredIn_append :
    deferredIn (first ++ second) era = deferredIn first era ++ deferredIn second era :=
  List.filterMap_append

@[simp] theorem appliedIn_append :
    appliedIn (first ++ second) era = appliedIn first era ++ appliedIn second era :=
  List.filterMap_append

@[simp] theorem cancelledIn_append :
    cancelledIn (first ++ second) era = cancelledIn first era ++ cancelledIn second era :=
  List.filterMap_append

@[simp] theorem startedIn_append :
    startedIn (first ++ second) = startedIn first ++ startedIn second :=
  List.filterMap_append

end SlashReceipt

open SlashReceipt

/-- A step that only lets slashes wait since the active era. -/
structure Defers (activeEra : ℕ) (before after : SlashQueue Account)
    (out : List (SlashReceipt Account)) : Prop where
  clock : after.activeEra = before.activeEra ∧ after.session = before.session
  bondedEras : after.bondedEras = before.bondedEras
  earliest : after.earliest = before.earliest
  unapplied : ∀ era, after.unapplied era = before.unapplied era ++ deferredIn out era
  only : ∀ receipt ∈ out, ∃ unapplied, receipt = .deferred activeEra unapplied

namespace Defers

variable {Account : Type} {activeEra : ℕ} {first second third : SlashQueue Account}
  {out more : List (SlashReceipt Account)}

theorem refl (queue : SlashQueue Account) : Defers activeEra queue queue [] where
  clock := ⟨rfl, rfl⟩
  bondedEras := rfl
  earliest := rfl
  unapplied _ := (List.append_nil _).symm
  only _ member := absurd member List.not_mem_nil

theorem trans (left : Defers activeEra first second out) (right : Defers activeEra second third more) :
    Defers activeEra first third (out ++ more) where
  clock := ⟨right.clock.1.trans left.clock.1, right.clock.2.trans left.clock.2⟩
  bondedEras := right.bondedEras.trans left.bondedEras
  earliest := right.earliest.trans left.earliest
  unapplied era := by
    rw [right.unapplied, left.unapplied, deferredIn_append, List.append_assoc]
  only receipt member := by
    rcases List.mem_append.mp member with early | late
    · exact left.only receipt early
    · exact right.only receipt late

end Defers

/-- With a delay, a reported offender is at most deferred. -/
theorem reportOffender_defers (delays : config.slashDeferDuration ≠ 0) (state : OffenceState config)
    (activeEra slashEra : ℕ) (strategy : DisableStrategy) (details : OffenceDetails Account)
    (fraction : Perbill) :
    Defers activeEra state.queue
      (reportOffender state activeEra slashEra strategy details fraction).1.queue
      (reportOffender state activeEra slashEra strategy details fraction).2 := by
  unfold reportOffender
  split_ifs with spared
  · exact .refl _
  have computed := computeSlash_queue state
    (slashParams state activeEra slashEra strategy details fraction)
  split
  · next after same =>
    rw [same] at computed
    rw [← computed]
    exact .refl _
  · next after unapplied same =>
    rw [same] at computed
    rw [← computed]
    refine ⟨⟨rfl, rfl⟩, rfl, rfl, fun era => ?_, ?_⟩
    · change Function.update after.unappliedSlashes activeEra _ era = after.unappliedSlashes era ++ _
      rw [Function.update_apply]
      unfold deferredIn
      by_cases here : era = activeEra
      · rw [if_pos here, here]
        simp
      · rw [if_neg here]
        simp [Ne.symm here]
    · intro receipt member
      exact ⟨_, List.mem_singleton.mp member⟩

theorem reportOffenders_defers (delays : config.slashDeferDuration ≠ 0) (activeEra slashEra : ℕ)
    (strategy : DisableStrategy) (offenders : List (OffenceDetails Account × Perbill))
    (state : OffenceState config) :
    Defers activeEra state.queue
      (reportOffenders activeEra slashEra strategy offenders state).1.queue
      (reportOffenders activeEra slashEra strategy offenders state).2 := by
  induction offenders generalizing state with
  | nil => exact .refl _
  | cons offender rest ih =>
    simp only [reportOffenders]
    exact (reportOffender_defers delays state activeEra slashEra strategy offender.1
      offender.2).trans (ih _)

/-- A step that moves no clock and starts no era. -/
structure Reports (before after : SlashQueue Account) (out : List (SlashReceipt Account)) : Prop where
  clock : after.activeEra = before.activeEra ∧ after.session = before.session
  bondedEras : after.bondedEras = before.bondedEras
  started : startedIn out = []

namespace Reports

variable {Account : Type} {first second third : SlashQueue Account}
  {out more : List (SlashReceipt Account)}

theorem refl (queue : SlashQueue Account) : Reports queue queue [] := ⟨⟨rfl, rfl⟩, rfl, rfl⟩

theorem trans (left : Reports first second out) (right : Reports second third more) :
    Reports first third (out ++ more) where
  clock := ⟨right.clock.1.trans left.clock.1, right.clock.2.trans left.clock.2⟩
  bondedEras := right.bondedEras.trans left.bondedEras
  started := by rw [startedIn_append, left.started, right.started, List.append_nil]

end Reports

/-- With a delay or without, a report starts nothing. -/
theorem reportOffender_reports (state : OffenceState config) (activeEra slashEra : ℕ)
    (strategy : DisableStrategy) (details : OffenceDetails Account) (fraction : Perbill) :
    Reports state.queue
      (reportOffender state activeEra slashEra strategy details fraction).1.queue
      (reportOffender state activeEra slashEra strategy details fraction).2 := by
  unfold reportOffender
  by_cases spared : details.offender ∈ state.invulnerables
  · rw [if_pos spared]
    exact .refl _
  rw [if_neg spared]
  have computed := computeSlash_queue state
    (slashParams state activeEra slashEra strategy details fraction)
  split
  · next after same =>
    rw [same] at computed
    rw [← computed]
    exact .refl _
  · next after unapplied same =>
    rw [same] at computed
    rw [← computed]
    dsimp only
    split_ifs with none
    · rw [applySlash_queue]
      exact ⟨⟨rfl, rfl⟩, rfl, rfl⟩
    · exact ⟨⟨rfl, rfl⟩, rfl, rfl⟩

theorem reportOffenders_reports (activeEra slashEra : ℕ) (strategy : DisableStrategy)
    (offenders : List (OffenceDetails Account × Perbill)) (state : OffenceState config) :
    Reports state.queue (reportOffenders activeEra slashEra strategy offenders state).1.queue
      (reportOffenders activeEra slashEra strategy offenders state).2 := by
  induction offenders generalizing state with
  | nil => exact .refl _
  | cons offender rest ih =>
    simp only [reportOffenders]
    exact (reportOffender_reports state activeEra slashEra strategy offender.1 offender.2).trans
      (ih _)

/-! ## Applying what has waited -/

theorem applyEra_queue (now era : ℕ) (waiting : List (UnappliedSlash Account))
    (state : OffenceState config) : (applyEra now era waiting state).1.queue = state.queue := by
  induction waiting generalizing state with
  | nil => rfl
  | cons unapplied rest ih =>
    simp only [applyEra]
    rw [ih, applySlash_queue]

theorem applyEra_out (now era : ℕ) (waiting : List (UnappliedSlash Account))
    (state : OffenceState config) :
    (applyEra now era waiting state).2 = waiting.map (.applied now era) := by
  induction waiting generalizing state with
  | nil => rfl
  | cons unapplied rest ih =>
    simp only [applyEra, List.map_cons]
    rw [ih]

/-- A step that takes and applies whatever waits since some eras in a row. -/
structure Applies (now first last : ℕ) (before after : SlashQueue Account)
    (out : List (SlashReceipt Account)) : Prop where
  clock : after.activeEra = before.activeEra ∧ after.session = before.session
  bondedEras : after.bondedEras = before.bondedEras
  earliest : after.earliest = before.earliest
  unapplied : ∀ era, after.unapplied era =
    if first ≤ era ∧ era < last then [] else before.unapplied era
  applied : ∀ era, appliedIn out era =
    if first ≤ era ∧ era < last then before.unapplied era else []
  only : ∀ receipt ∈ out, ∃ era unapplied, receipt = .applied now era unapplied ∧
    first ≤ era ∧ era < last

/-- Slashes of one era that were applied are applied in that era alone. -/
theorem appliedIn_map {Account : Type} (now era other : ℕ)
    (waiting : List (UnappliedSlash Account)) :
    appliedIn (waiting.map (.applied now era)) other = if other = era then waiting else [] := by
  unfold appliedIn
  rw [List.filterMap_map]
  by_cases here : other = era
  · rw [if_pos here, here]
    simp
  · rw [if_neg here]
    simp [Ne.symm here]

theorem applyEras_applies (now era count : ℕ) (state : OffenceState config) :
    Applies now era (era + count) state.queue (applyEras now era count state).1.queue
      (applyEras now era count state).2 := by
  induction count generalizing era state with
  | zero =>
    refine ⟨⟨rfl, rfl⟩, rfl, rfl, fun other => ?_, fun other => ?_, ?_⟩
    · rw [if_neg (by omega)]
      rfl
    · rw [if_neg (by omega)]
      rfl
    · intro receipt member
      exact absurd member List.not_mem_nil
  | succ count ih =>
    simp only [applyEras]
    rw [applyEra_out]
    have later := ih (era + 1) (applyEra now era (state.unappliedSlashes era)
      (takeUnapplied state era)).1
    rw [applyEra_queue] at later
    have empty : ∀ other, (takeUnapplied state era).queue.unapplied other =
        if other = era then [] else state.unappliedSlashes other := by
      intro other
      change Function.update state.unappliedSlashes era [] other = _
      rw [Function.update_apply]
    refine ⟨later.clock, later.bondedEras, later.earliest, fun other => ?_, fun other => ?_, ?_⟩
    · rw [later.unapplied, empty]
      change _ = if _ then [] else state.unappliedSlashes other
      split_ifs <;> first | rfl | omega
    · rw [appliedIn_append, appliedIn_map, later.applied, empty]
      change _ = if _ then state.unappliedSlashes other else []
      by_cases here : other = era
      · subst here
        have outside : ¬ (other + 1 ≤ other ∧ other < other + 1 + count) := by omega
        have inside : other ≤ other ∧ other < other + (count + 1) := by omega
        rw [if_pos rfl, if_neg outside, if_pos inside, List.append_nil]
      · rw [if_neg here, if_neg here, List.nil_append]
        split_ifs <;> first | rfl | omega
    · intro receipt member
      rcases List.mem_append.mp member with early | late
      · obtain ⟨unapplied, -, rfl⟩ := List.mem_map.mp early
        exact ⟨era, unapplied, rfl, by omega, by omega⟩
      · obtain ⟨other, unapplied, rfl, bounds⟩ := later.only receipt late
        exact ⟨other, unapplied, rfl, by omega, by omega⟩

/-! ## What a step does to the queue -/

/-- The bonded eras once a new one is pushed, without those from before the bonding period. -/
def keepBonded (bondingDuration activeEra : ℕ) (bonded : List (ℕ × ℕ)) : List (ℕ × ℕ) :=
  if bondingDuration < activeEra then
    bonded.drop (bonded.takeWhile (·.1 < activeEra - bondingDuration)).length
  else bonded

/-- The queue as a new era starts, before anything is applied. -/
def startedQueue (config : SlashConfig Account) (queue : SlashQueue Account)
    (activeEra session : ℕ) : SlashQueue Account :=
  { queue with
    activeEra := some activeEra
    session := some session
    bondedEras := keepBonded config.bondingDuration activeEra
      (queue.bondedEras ++ [(activeEra, session)]) }

/-- What a step does to the queue. -/
inductive QueueStep (config : SlashConfig Account) (before : SlashQueue Account) :
    SlashQueue Account → List (SlashReceipt Account) → Prop
  | idle : QueueStep config before before []
  /-- A session starts and no era does. -/
  | session (session : ℕ) (later : ∀ earlier ∈ before.session, earlier < session) :
      QueueStep config before { before with session := some session } []
  /-- A session starts an era, and no slash was ever reported. -/
  | quietEra (session activeEra : ℕ) (later : ∀ earlier ∈ before.session, earlier < session)
      (next : activeEra = (before.activeEra.map (· + 1)).getD 0) (none : before.earliest = none) :
      QueueStep config before (startedQueue config before activeEra session)
        [.started activeEra session]
  /-- A session starts an era, and slashes are applied. -/
  | era (session activeEra earliest : ℕ) (later : ∀ earlier ∈ before.session, earlier < session)
      (next : activeEra = (before.activeEra.map (· + 1)).getD 0)
      (some_ : before.earliest = some earliest) (after : SlashQueue Account)
      (out : List (SlashReceipt Account))
      (applies : Applies activeEra earliest
        (earliest + (activeEra - config.slashDeferDuration - earliest))
        (startedQueue config before activeEra session) after out) :
      QueueStep config before
        { after with earliest := some (max earliest (activeEra - config.slashDeferDuration)) }
        (.started activeEra session :: out)
  /-- Offences are reported. -/
  | reported (activeEra : ℕ) (active : before.activeEra = some activeEra)
      (after : SlashQueue Account) (out : List (SlashReceipt Account))
      (reports : Reports before after out)
      (defers : config.slashDeferDuration ≠ 0 → Defers activeEra
        { before with earliest := some (before.earliest.getD activeEra) } after out) :
      QueueStep config before after out
  /-- Slashes of an era are cancelled. -/
  | cancelled (era : ℕ) (indices : List ℕ) (ascending : indices.Pairwise (· < ·))
      (inside : ∀ index ∈ indices, index < (before.unapplied era).length) :
      QueueStep config before
        { before with
          unapplied := Function.update before.unapplied era
            (keepOthers 0 indices (before.unapplied era)) }
        ((entriesAt 0 indices (before.unapplied era)).map (.cancelled era))

theorem pushBondedEra_queue (state : OffenceState config) (activeEra session : ℕ) :
    (pushBondedEra state activeEra session).queue = { state.queue with
      bondedEras := keepBonded config.bondingDuration activeEra
        (state.bondedEras ++ [(activeEra, session)]) } := by
  have cleared : ∀ (entries : List (ℕ × ℕ)) (state : OffenceState config),
      (entries.foldl (fun state entry => clearEraMetadata state entry.1) state).queue =
        state.queue := by
    intro entries
    induction entries with
    | nil => intro state; rfl
    | cons entry rest ih =>
      intro state
      rw [List.foldl_cons, ih]
      rfl
  unfold pushBondedEra keepBonded
  dsimp only
  split_ifs
  · have same := cleared ((state.bondedEras ++ [(activeEra, session)]).takeWhile
      (·.1 < activeEra - config.bondingDuration)) state
    generalize (List.takeWhile _ _).foldl _ state = after at *
    unfold OffenceState.queue at same ⊢
    rw [SlashQueue.mk.injEq] at same
    rw [SlashQueue.mk.injEq]
    exact ⟨same.1, same.2.1, rfl, same.2.2.2⟩
  · rfl

/-- The new era joins the bonded ones before anything is applied. -/
theorem pushBondedEra_startEra (before : SlashQueue Account) (state : OffenceState config)
    {session : ℕ} (same : state.queue = { before with session := some session }) :
    (pushBondedEra { state with toEraStorage := startEra state.toEraStorage } state.nextActiveEra
      session).queue = startedQueue config before state.nextActiveEra session := by
  rw [pushBondedEra_queue]
  unfold startedQueue OffenceState.queue at *
  rw [SlashQueue.mk.injEq] at same ⊢
  obtain ⟨-, sameSession, bonded, earliest, unapplied⟩ := same
  exact ⟨rfl, sameSession, by rw [← bonded], earliest, unapplied⟩

/-- Starting an era in a later session is one of the two steps that start one. -/
theorem startEraSlashing_queue (before : SlashQueue Account) (state : OffenceState config)
    {session : ℕ} (same : state.queue = { before with session := some session })
    (later : ∀ earlier ∈ before.session, earlier < session) :
    QueueStep config before (startEraSlashing state session).1.queue
      (startEraSlashing state session).2 := by
  have next : state.nextActiveEra = (before.activeEra.map (· + 1)).getD 0 := by
    have active : state.activeEra.map (·.index) = before.activeEra :=
      congrArg SlashQueue.activeEra same
    rw [← active]
    unfold EraStorage.nextActiveEra
    cases state.activeEra <;> rfl
  have pushed := pushBondedEra_startEra before state same
  unfold startEraSlashing applyUnappliedSlashes
  dsimp only
  generalize pushBondedEra { state with toEraStorage := startEra state.toEraStorage }
    state.nextActiveEra session = middle at *
  cases reported : middle.earliestUnappliedSlash with
  | none =>
    dsimp only
    rw [pushed]
    exact .quietEra session _ later next ((congrArg SlashQueue.earliest pushed).symm.trans reported)
  | some earliest =>
    dsimp only
    have applies := applyEras_applies state.nextActiveEra earliest
      (state.nextActiveEra - config.slashDeferDuration - earliest) middle
    rw [pushed] at applies
    exact .era session _ earliest later next ((congrArg SlashQueue.earliest pushed).symm.trans reported)
      _ _ applies

/-- Ending a session moves no counter. -/
theorem endSession_clock {config : Config Account} (state : State config) (session : ℕ) :
    (endSession state session).activeEra = state.activeEra ∧
      (endSession state session).sessionIndex = state.sessionIndex ∧
      (endSession state session).currentEra = state.currentEra ∧
      (endSession state session).historyDepth = state.historyDepth ∧
      (endSession state session).erasStartSessionIndex = state.erasStartSessionIndex := by
  unfold endSession endEra
  split
  · exact ⟨rfl, rfl, rfl, rfl, rfl⟩
  · split
    · exact ⟨rfl, rfl, rfl, rfl, rfl⟩
    · simp only [setEraReward, (triggerWallet_spec state).1]
      exact ⟨trivial, trivial, trivial, trivial, trivial⟩

theorem endSessionSlashing_queue (state : OffenceState config) (session : ℕ) :
    (endSessionSlashing state session).queue = state.queue := by
  have clock := endSession_clock state.toState session
  unfold endSessionSlashing OffenceState.queue
  rw [SlashQueue.mk.injEq]
  exact ⟨congrArg (Option.map _) clock.1, clock.2.1, rfl, rfl, rfl⟩

/-- Planning a session moves no queue. -/
theorem newSession_queue (state : OffenceState config) (session : ℕ)
    (election : Option (Supports Account)) :
    ({ state with toState := newSession state.toState session election } :
      OffenceState config).queue = state.queue := by
  obtain ⟨active, index, -⟩ := (newSession_planned state.toState session election).starts
  unfold OffenceState.queue
  rw [SlashQueue.mk.injEq]
  exact ⟨congrArg (Option.map _) active, index, rfl, rfl, rfl⟩

theorem startSessionSlashing_queue (before : SlashQueue Account) (state : OffenceState config)
    {session : ℕ} (same : state.queue = { before with session := some session })
    (later : ∀ earlier ∈ before.session, earlier < session) :
    QueueStep config before (startSessionSlashing state session).1.queue
      (startSessionSlashing state session).2 := by
  have quiet : ∀ state : OffenceState config, (disableOffenders state).queue = state.queue :=
    fun _ => rfl
  unfold startSessionSlashing
  dsimp only
  split_ifs with starts
  · rw [quiet]
    exact startEraSlashing_queue before state same later
  · rw [quiet, same]
    exact .session session later

theorem rotateSessionSlashing_queue (state : OffenceState config) {session : ℕ}
    (index : state.sessionIndex = some session) (rotation : Rotation Account)
    (election : Option (Supports Account)) :
    QueueStep config state.queue (rotateSessionSlashing state session rotation election).1.queue
      (rotateSessionSlashing state session rotation election).2 := by
  have ended := endSessionSlashing_queue state session
  unfold rotateSessionSlashing
  dsimp only
  rw [newSession_queue]
  apply startSessionSlashing_queue
  · generalize endSessionSlashing state session = after at *
    unfold OffenceState.queue at ended ⊢
    rw [SlashQueue.mk.injEq] at ended ⊢
    exact ⟨ended.1, rfl, ended.2.2⟩
  · intro earlier present
    obtain rfl := Option.some.inj (index.symm.trans present)
    exact Nat.lt_succ_self _

theorem genesisSessionSlashing_queue (state : OffenceState config)
    (fresh : state.sessionIndex = none) (rotation : Rotation Account)
    (first second : Option (Supports Account)) :
    QueueStep config state.queue (genesisSessionSlashing state rotation first second).1.queue
      (genesisSessionSlashing state rotation first second).2 := by
  obtain ⟨active, -, -⟩ := (newSession_planned state.toState 0 first).starts
  obtain ⟨active', -, -⟩ := (newSession_planned (newSession state.toState 0 first) 1 second).starts
  unfold genesisSessionSlashing
  apply startSessionSlashing_queue
  · unfold OffenceState.queue
    rw [SlashQueue.mk.injEq]
    exact ⟨congrArg (Option.map _) (active'.trans active), rfl, rfl, rfl, rfl⟩
  · intro earlier present
    cases fresh.symm.trans present

/-- `is_sorted_and_unique` holds of the strictly ascending lists. -/
theorem isSortedAndUnique_iff {indices : List ℕ} :
    isSortedAndUnique indices = true ↔ indices.Pairwise (· < ·) := by
  rw [← List.isChain_iff_pairwise]
  induction indices with
  | nil => simp [isSortedAndUnique]
  | cons first rest ih =>
    cases rest with
    | nil => simp [isSortedAndUnique]
    | cons second rest => simp only [isSortedAndUnique, Bool.and_eq_true, decide_eq_true_eq, ih,
        List.isChain_cons_cons]

/-- No entry of an ascending list is above its last. -/
theorem le_getLastD {indices : List ℕ} (ascending : indices.Pairwise (· < ·)) {index : ℕ}
    (member : index ∈ indices) : index ≤ indices.getLastD 0 := by
  induction indices with
  | nil => exact absurd member List.not_mem_nil
  | cons first rest ih =>
    rw [List.pairwise_cons] at ascending
    cases rest with
    | nil =>
      rw [List.mem_singleton] at member
      exact member.le
    | cons second rest =>
      rw [List.getLastD_cons]
      rcases List.mem_cons.mp member with rfl | behind
      · have last : (second :: rest).getLastD index ∈ second :: rest := by
          rw [List.getLastD_eq_getLast?, List.getLast?_eq_getLast_of_ne_nil (List.cons_ne_nil _ _)]
          exact List.getLast_mem _
        exact (ascending.1 _ last).le
      · have bound := ih ascending.2 behind
        rwa [List.getLastD_cons] at bound ⊢

/-- A cancellation removes the slashes at the named positions and no others. -/
theorem cancelDeferredSlash_ok {state after : OffenceState config} {era : ℕ} {indices : List ℕ}
    {out : List (SlashReceipt Account)}
    (success : cancelDeferredSlash state era indices = .ok (after, out)) :
    indices.Pairwise (· < ·) ∧ (∀ index ∈ indices, index < (state.unappliedSlashes era).length) ∧
      after = { state with
        unappliedSlashes := Function.update state.unappliedSlashes era
          (keepOthers 0 indices (state.unappliedSlashes era)) } ∧
      out = (entriesAt 0 indices (state.unappliedSlashes era)).map (.cancelled era) := by
  simp only [cancelDeferredSlash, bind_eq_ok, ensure_eq_ok, pure_eq_ok, Prod.mk.injEq] at success
  obtain ⟨-, -, -, sorted, -, inside, rfl, rfl⟩ := success
  have ascending := isSortedAndUnique_iff.mp sorted
  have bound : ∀ index ∈ indices, index < (state.unappliedSlashes era).length :=
    fun index member => (le_getLastD ascending member).trans_lt inside
  refine ⟨ascending, bound, ?_, ?_⟩
  · rw [removeShifted_eq ascending bound]
  · unfold entriesAt
    rw [List.map_filterMap]
    rfl

/-- Every step of the system does one of these things to the queue. -/
theorem offenceStep_queue {before after : OffenceState config} {call : OffenceCall config}
    {out : List (SlashReceipt Account)} (taken : offenceStep before call = .ok (after, out)) :
    QueueStep config before.queue after.queue out := by
  have idle : after.queue = before.queue → out = [] →
      QueueStep config before.queue after.queue out := by
    intro same none
    rw [same, none]
    exact .idle
  cases call with
  | genesisSession first second rotation =>
    simp only [offenceStep] at taken
    split at taken
    · next fresh =>
      obtain ⟨rfl, rfl⟩ := Prod.mk.inj (Except.ok.inj taken)
      exact genesisSessionSlashing_queue before fresh rotation first second
    · contradiction
  | rotateSession rotation election =>
    simp only [offenceStep] at taken
    split at taken
    · contradiction
    · next session index =>
      obtain ⟨rfl, rfl⟩ := Prod.mk.inj (Except.ok.inj taken)
      exact rotateSessionSlashing_queue before index rotation election
  | onFinalize now =>
    obtain ⟨rfl, rfl⟩ := Prod.mk.inj (Except.ok.inj taken)
    refine idle ?_ rfl
    unfold OffenceState.queue onFinalize
    rw [SlashQueue.mk.injEq]
    dsimp only
    split
    · next index active => exact ⟨by rw [active]; rfl, rfl, rfl, rfl, rfl⟩
    · exact ⟨rfl, rfl, rfl, rfl, rfl⟩
  | setHistoryDepth depth =>
    obtain ⟨rfl, rfl⟩ := Prod.mk.inj (Except.ok.inj taken)
    refine idle ?_ rfl
    unfold OffenceState.queue setHistoryDepth
    rw [SlashQueue.mk.injEq]
    dsimp only
    split
    · exact ⟨rfl, rfl, rfl, rfl, rfl⟩
    · next current planned =>
      obtain ⟨-, -, -, active, session, -⟩ := clearEras_spec before.toEraStorage
        (before.firstEra current) (current - depth.toNat - before.firstEra current)
      exact ⟨congrArg (Option.map _) active, session, rfl, rfl, rfl⟩
  | onOffence offenders fractions slashSession strategy =>
    obtain ⟨same⟩ : onOffence before offenders fractions slashSession strategy = (after, out) ∧ True :=
      ⟨Except.ok.inj taken, trivial⟩
    unfold onOffence at same
    split at same
    · obtain ⟨rfl, rfl⟩ := Prod.mk.inj same
      exact .idle
    · next active present =>
      split at same
      · obtain ⟨rfl, rfl⟩ := Prod.mk.inj same
        exact .idle
      · next slashEra found =>
        let opened : OffenceState config := { before with
          earliestUnappliedSlash := some (before.earliestUnappliedSlash.getD active.index) }
        have reports := reportOffenders_reports active.index slashEra strategy
          (offenders.zip fractions) opened
        rw [same] at reports
        refine .reported active.index ?_ _ _ ⟨reports.clock, reports.bondedEras, reports.started⟩ ?_
        · change before.activeEra.map _ = _
          rw [present]
          rfl
        · intro delays
          have defers := reportOffenders_defers delays active.index slashEra strategy
            (offenders.zip fractions) opened
          rwa [same] at defers
  | cancelDeferredSlash era indices =>
    obtain ⟨ascending, inside, rfl, rfl⟩ := cancelDeferredSlash_ok taken
    exact .cancelled era indices ascending inside
  | killStash stash spans =>
    simp only [offenceStep] at taken
    split at taken
    · next killed success =>
      obtain ⟨rfl, rfl⟩ := Prod.mk.inj (Except.ok.inj taken)
      simp only [killStashSlashing, bind_eq_ok, pure_eq_ok] at success
      obtain ⟨chain, done, book, -, rfl⟩ := success
      refine idle ?_ rfl
      have eras := (killAndUnlock_move done).eras
      unfold OffenceState.queue
      rw [SlashQueue.mk.injEq]
      dsimp only
      rw [eras]
      exact ⟨rfl, rfl, rfl, rfl, rfl⟩
    · contradiction
  | setSlashRewardFraction fraction =>
    obtain ⟨rfl, rfl⟩ := Prod.mk.inj (Except.ok.inj taken)
    exact .idle
  | setInvulnerables invulnerables =>
    obtain ⟨rfl, rfl⟩ := Prod.mk.inj (Except.ok.inj taken)
    exact .idle
  | outside change =>
    obtain ⟨rfl, rfl⟩ := Prod.mk.inj (Except.ok.inj taken)
    exact .idle

/-! ## Every slash is applied once, when it is due -/

/-- How the queue stands to what happened. -/
structure QueueInv (delay : ℕ) (queue : SlashQueue Account) (log : List (SlashReceipt Account)) :
    Prop where
  /-- Whatever is earlier has been applied. -/
  window : ∀ earliest ∈ queue.earliest, ∃ active ∈ queue.activeEra,
    earliest ≤ active ∧ active - delay ≤ earliest
  waits : ∀ era, queue.unapplied era ≠ [] → ∃ earliest ∈ queue.earliest,
    ∃ active ∈ queue.activeEra, earliest ≤ era ∧ era ≤ active
  conserved : ∀ era, (deferredIn log era).Perm
    (appliedIn log era ++ (cancelledIn log era ++ queue.unapplied era))
  prompt : ∀ now era unapplied, SlashReceipt.applied now era unapplied ∈ log →
    now = era + delay + 1

omit [DecidableEq Account] in
/-- Only applications appear among what is applied. -/
theorem Applies.silent {now first last : ℕ} {before after : SlashQueue Account}
    {out : List (SlashReceipt Account)} (applies : Applies now first last before after out)
    (era : ℕ) : deferredIn out era = [] ∧ cancelledIn out era = [] := by
  constructor
  all_goals
    apply List.filterMap_eq_nil_iff.mpr
    intro receipt member
    obtain ⟨other, unapplied, rfl, -⟩ := applies.only receipt member
    rfl

omit [DecidableEq Account] in
/-- Only deferrals appear among what is deferred, and all of the active era. -/
theorem Defers.silent {activeEra : ℕ} {before after : SlashQueue Account}
    {out : List (SlashReceipt Account)} (defers : Defers activeEra before after out) (era : ℕ) :
    appliedIn out era = [] ∧ cancelledIn out era = [] ∧
      (deferredIn out era ≠ [] → era = activeEra) := by
  refine ⟨?_, ?_, ?_⟩
  · apply List.filterMap_eq_nil_iff.mpr
    intro receipt member
    obtain ⟨unapplied, rfl⟩ := defers.only receipt member
    rfl
  · apply List.filterMap_eq_nil_iff.mpr
    intro receipt member
    obtain ⟨unapplied, rfl⟩ := defers.only receipt member
    rfl
  · intro some
    by_contra other
    apply some
    apply List.filterMap_eq_nil_iff.mpr
    intro receipt member
    obtain ⟨unapplied, rfl⟩ := defers.only receipt member
    exact if_neg (Ne.symm other)

namespace QueueInv

variable {queue after : SlashQueue Account} {log out : List (SlashReceipt Account)}

omit [DecidableEq Account] in
/-- The clock may move as long as the queue does not. -/
theorem clock {delay : ℕ} (inv : QueueInv delay queue log)
    (active : after.activeEra = queue.activeEra) (earliest : after.earliest = queue.earliest)
    (unapplied : after.unapplied = queue.unapplied) : QueueInv delay after log where
  window := by
    rw [active, earliest]
    exact inv.window
  waits := by
    rw [active, earliest, unapplied]
    exact inv.waits
  conserved := by
    rw [unapplied]
    exact inv.conserved
  prompt := inv.prompt

/-- Everything that waits long enough is applied as an era starts, and nothing sooner. -/
theorem era {session activeEra earliest : ℕ}
    (inv : QueueInv config.slashDeferDuration queue log)
    (next : activeEra = (queue.activeEra.map (· + 1)).getD 0)
    (reported : queue.earliest = some earliest)
    (applies : Applies activeEra earliest
      (earliest + (activeEra - config.slashDeferDuration - earliest))
      (startedQueue config queue activeEra session) after out) :
    QueueInv config.slashDeferDuration
      { after with earliest := some (max earliest (activeEra - config.slashDeferDuration)) }
      (log ++ .started activeEra session :: out) := by
  obtain ⟨active, isActive, bound, recent⟩ := inv.window earliest reported
  have isActive : queue.activeEra = some active := isActive
  rw [isActive] at next
  change activeEra = active + 1 at next
  have silent : ∀ era, deferredIn (.started activeEra session :: out) era = [] ∧
      cancelledIn (.started activeEra session :: out) era = [] ∧
      appliedIn (.started activeEra session :: out) era = appliedIn out era := fun era =>
    ⟨(applies.silent era).1, (applies.silent era).2, rfl⟩
  constructor
  · rintro start present
    obtain rfl := Option.some.inj present
    refine ⟨activeEra, applies.clock.1, ?_, le_max_right _ _⟩
    exact max_le (by omega) (Nat.sub_le _ _)
  · intro era waiting
    have left := applies.unapplied era
    change after.unapplied era ≠ [] at waiting
    split_ifs at left with inside
    · exact absurd left waiting
    · rw [left] at waiting
      obtain ⟨start, present, now, isNow, above, below⟩ := inv.waits era waiting
      obtain rfl := Option.some.inj (reported.symm.trans present)
      obtain rfl := Option.some.inj (isActive.symm.trans isNow)
      refine ⟨_, rfl, activeEra, applies.clock.1, ?_, by omega⟩
      exact max_le above (by omega)
  · intro era
    obtain ⟨noneDeferred, noneCancelled, applied⟩ := silent era
    rw [deferredIn_append, appliedIn_append, cancelledIn_append, noneDeferred, noneCancelled,
      applied, List.append_nil, List.append_nil, applies.applied]
    change List.Perm _ (_ ++ (_ ++ after.unapplied era))
    rw [applies.unapplied]
    change List.Perm _ (_ ++ (if _ then queue.unapplied era else []) ++
      (_ ++ if _ then [] else queue.unapplied era))
    refine (inv.conserved era).trans ?_
    split_ifs
    · rw [List.append_nil, List.append_assoc]
      exact List.Perm.append_left _ List.perm_append_comm
    · rw [List.append_nil]
  · intro now era unapplied member
    rcases List.mem_append.mp member with early | late
    · exact inv.prompt now era unapplied early
    · rcases List.mem_cons.mp late with started | late
      · contradiction
      · obtain ⟨other, same, receipt, above, below⟩ := applies.only _ late
        obtain ⟨rfl, rfl, -⟩ := SlashReceipt.applied.inj receipt
        omega

omit [DecidableEq Account] in
/-- What is reported now waits since now. -/
theorem reported {delay activeEra : ℕ} (inv : QueueInv delay queue log)
    (active : queue.activeEra = some activeEra)
    (defers : Defers activeEra
      { queue with earliest := some (queue.earliest.getD activeEra) } after out) :
    QueueInv delay after (log ++ out) := by
  have clock : after.activeEra = some activeEra := defers.clock.1.trans active
  have start : after.earliest = some (queue.earliest.getD activeEra) := defers.earliest
  have bounds : queue.earliest.getD activeEra ≤ activeEra ∧
      activeEra - delay ≤ queue.earliest.getD activeEra := by
    cases present : queue.earliest with
    | none => exact ⟨le_rfl, Nat.sub_le _ _⟩
    | some earliest =>
      obtain ⟨now, isNow, bounds⟩ := inv.window earliest present
      obtain rfl := Option.some.inj (active.symm.trans isNow)
      exact bounds
  constructor
  · rw [start, clock]
    rintro earliest present
    obtain rfl := Option.some.inj present
    exact ⟨activeEra, rfl, bounds⟩
  · intro era waiting
    rw [start, clock]
    refine ⟨_, rfl, activeEra, rfl, ?_⟩
    have grown := defers.unapplied era
    change after.unapplied era = queue.unapplied era ++ _ at grown
    by_cases before : queue.unapplied era = []
    · rw [before, List.nil_append] at grown
      obtain rfl := (defers.silent era).2.2 (grown ▸ waiting)
      exact ⟨bounds.1, le_rfl⟩
    · obtain ⟨earliest, present, now, isNow, above, below⟩ := inv.waits era before
      obtain rfl := Option.some.inj (active.symm.trans isNow)
      rw [present]
      exact ⟨above, below⟩
  · intro era
    obtain ⟨noneApplied, noneCancelled, -⟩ := defers.silent era
    rw [deferredIn_append, appliedIn_append, cancelledIn_append, noneApplied, noneCancelled,
      List.append_nil, List.append_nil, defers.unapplied]
    change List.Perm _ (_ ++ (_ ++ (queue.unapplied era ++ _)))
    have before := (inv.conserved era).append_right (deferredIn out era)
    simpa only [List.append_assoc] using before
  · intro now era unapplied member
    rcases List.mem_append.mp member with early | late
    · exact inv.prompt now era unapplied early
    · obtain ⟨other, receipt⟩ := defers.only _ late
      contradiction

omit [DecidableEq Account] in
/-- What is cancelled waits no more. -/
theorem cancelled {delay era : ℕ} {indices : List ℕ} (inv : QueueInv delay queue log)
    (ascending : indices.Pairwise (· < ·))
    (inside : ∀ index ∈ indices, index < (queue.unapplied era).length) :
    QueueInv delay
      { queue with
        unapplied := Function.update queue.unapplied era
          (keepOthers 0 indices (queue.unapplied era)) }
      (log ++ (entriesAt 0 indices (queue.unapplied era)).map (.cancelled era)) := by
  have whole := keepOthers_zero_perm ascending inside
  generalize entriesAt 0 indices (queue.unapplied era) = gone at *
  generalize keepOthers 0 indices (queue.unapplied era) = kept at *
  have silent : ∀ other, deferredIn (gone.map (.cancelled era)) other = [] ∧
      appliedIn (gone.map (.cancelled era)) other = [] ∧
      cancelledIn (gone.map (.cancelled era)) other = if other = era then gone else [] := by
    intro other
    unfold deferredIn appliedIn cancelledIn
    rw [List.filterMap_map, List.filterMap_map, List.filterMap_map]
    by_cases here : other = era
    · rw [if_pos here, here]
      simp
    · rw [if_neg here]
      simp [Ne.symm here]
  constructor
  · exact inv.window
  · intro other waiting
    apply inv.waits other
    intro none
    apply waiting
    change Function.update queue.unapplied era kept other = []
    rw [Function.update_apply]
    split_ifs with here
    · rw [← here, none] at whole
      exact (List.append_eq_nil_iff.mp whole.eq_nil).1
    · exact none
  · intro other
    obtain ⟨noneDeferred, noneApplied, cancelled⟩ := silent other
    rw [deferredIn_append, appliedIn_append, cancelledIn_append, noneDeferred, noneApplied,
      cancelled, List.append_nil, List.append_nil]
    refine (inv.conserved other).trans (List.Perm.append_left _ ?_)
    change List.Perm _ (_ ++ Function.update queue.unapplied era kept other)
    rw [Function.update_apply, List.append_assoc]
    apply List.Perm.append_left
    split_ifs with here
    · rw [here]
      exact whole.symm.trans List.perm_append_comm
    · rfl
  · intro now other unapplied member
    rcases List.mem_append.mp member with early | late
    · exact inv.prompt now other unapplied early
    · obtain ⟨_, -, receipt⟩ := List.mem_map.mp late
      contradiction

omit [DecidableEq Account] in
/-- As long as nothing was ever reported, an era that starts has nothing to apply. -/
theorem quiet {delay era session : ℕ} (inv : QueueInv delay queue log)
    (none : queue.earliest = none) (earliest : after.earliest = queue.earliest)
    (unapplied : after.unapplied = queue.unapplied) :
    QueueInv delay after (log ++ [.started era session]) where
  window := by
    rw [earliest, none]
    intro start present
    contradiction
  waits other waiting := by
    rw [unapplied] at waiting
    obtain ⟨start, present, -⟩ := inv.waits other waiting
    rw [none] at present
    contradiction
  conserved other := by
    rw [unapplied, deferredIn_append, appliedIn_append, cancelledIn_append]
    simpa [deferredIn, appliedIn, cancelledIn] using inv.conserved other
  prompt now other slash member := by
    rcases List.mem_append.mp member with early | late
    · exact inv.prompt now other slash early
    · exact absurd (List.mem_singleton.mp late) (by simp)

/-- Every step keeps the queue in order. -/
theorem step (delays : config.slashDeferDuration ≠ 0) (inv : QueueInv config.slashDeferDuration queue log)
    (taken : QueueStep config queue after out) :
    QueueInv config.slashDeferDuration after (log ++ out) := by
  cases taken with
  | idle =>
    rw [List.append_nil]
    exact inv
  | session session later =>
    rw [List.append_nil]
    exact inv.clock rfl rfl rfl
  | quietEra session activeEra later next none => exact inv.quiet none rfl rfl
  | era session activeEra earliest later next reported middle more applies =>
    exact inv.era next reported applies
  | reported activeEra active middle more reports defers =>
    exact inv.reported active (defers delays)
  | cancelled era indices ascending inside => exact inv.cancelled ascending inside

end QueueInv

/-! ## Over a run -/

theorem OffenceState.Initial.queue {state : OffenceState config} (initial : state.Initial) :
    QueueInv config.slashDeferDuration state.queue [] where
  window start present := by
    change state.earliestUnappliedSlash = some start at present
    rw [initial.earliestUnappliedSlash] at present
    contradiction
  waits era waiting := absurd (initial.unappliedSlashes era) waiting
  conserved era := by
    change List.Perm [] ([] ++ ([] ++ state.unappliedSlashes era))
    rw [initial.unappliedSlashes era]
    exact .refl _
  prompt _ _ _ member := absurd member List.not_mem_nil

theorem OffenceReachable.queueInv {state : OffenceState config} {log : List (SlashReceipt Account)}
    (reached : OffenceReachable state log) (delays : config.slashDeferDuration ≠ 0) :
    QueueInv config.slashDeferDuration state.queue log := by
  apply Machine.Reachable.invariant
    (fun (state : OffenceState config) => QueueInv config.slashDeferDuration state.queue) reached
  · exact fun _ initial => initial.queue
  · intro current next log out call inv _ taken
    exact inv.step delays (offenceStep_queue taken)

/-- Over any run, what was deferred in an era has been applied or cancelled once, or still waits.
It is applied in the era that is one past the delay, and waits no longer. -/
theorem deferred_settled (delays : config.slashDeferDuration ≠ 0) {state : OffenceState config}
    {log : List (SlashReceipt Account)} (reached : OffenceReachable state log) (era : ℕ) :
    (deferredIn log era).Perm
        (appliedIn log era ++ (cancelledIn log era ++ state.unappliedSlashes era)) ∧
      (∀ now unapplied, SlashReceipt.applied now era unapplied ∈ log →
        now = era + config.slashDeferDuration + 1) ∧
      ∀ active ∈ state.activeEra, era + config.slashDeferDuration < active.index →
        state.unappliedSlashes era = [] := by
  have inv := reached.queueInv delays
  refine ⟨inv.conserved era, fun now unapplied => inv.prompt now era unapplied, ?_⟩
  intro active isActive late
  by_contra waiting
  obtain ⟨earliest, start, now, isNow, above, below⟩ := inv.waits era waiting
  obtain ⟨now', isNow', bound, recent⟩ := inv.window earliest start
  have same : state.queue.activeEra = some active.index := congrArg (Option.map _) isActive
  obtain rfl := Option.some.inj (same.symm.trans isNow')
  omega

theorem deferAndCancel_settled :
    (deferredIn (offenceOutcome deferAndCancel).2 0).length = 2 ∧
    (appliedIn (offenceOutcome deferAndCancel).2 0).map (·.validator) = [10] ∧
    (deferredIn (offenceOutcome deferAndCancel).2 0).Perm
      (appliedIn (offenceOutcome deferAndCancel).2 0 ++
        (cancelledIn (offenceOutcome deferAndCancel).2 0 ++
          (offenceOutcome deferAndCancel).1.unappliedSlashes 0)) := by
  have reached := offenceOutcome_reachable deferAndCancel (by decide +kernel)
  exact ⟨by decide +kernel, by decide +kernel, (deferred_settled (by decide) reached 0).1⟩

/-- A cancellation goes through exactly for positions of waiting slashes in ascending order, and
takes those and no others, although every removal shifts the rest. -/
theorem cancelDeferredSlash_exactly (state : OffenceState config) (era : ℕ) (indices : List ℕ) :
    ((cancelDeferredSlash state era indices).isOk = true ↔
      indices ≠ [] ∧ indices.Pairwise (· < ·) ∧
        ∀ index ∈ indices, index < (state.unappliedSlashes era).length) ∧
    ∀ after out, cancelDeferredSlash state era indices = .ok (after, out) →
      (∀ other, after.unappliedSlashes other =
        if other = era then ((state.unappliedSlashes era).zipIdx.filter (·.2 ∉ indices)).map (·.1)
        else state.unappliedSlashes other) ∧
      (state.unappliedSlashes era).Perm
        (after.unappliedSlashes era ++ cancelledIn out era) := by
  constructor
  · constructor
    · intro success
      cases done : cancelDeferredSlash state era indices with
      | error problem =>
        rw [done] at success
        contradiction
      | ok result =>
        obtain ⟨ascending, inside, -⟩ := cancelDeferredSlash_ok done
        refine ⟨?_, ascending, inside⟩
        simp only [cancelDeferredSlash, bind_eq_ok, ensure_eq_ok] at done
        obtain ⟨-, nonempty, -⟩ := done
        exact nonempty
    · rintro ⟨nonempty, ascending, inside⟩
      have last : indices.getLastD 0 < (state.unappliedSlashes era).length := by
        apply inside
        rw [List.getLastD_eq_getLast?, List.getLast?_eq_getLast_of_ne_nil nonempty]
        exact List.getLast_mem nonempty
      unfold cancelDeferredSlash ensure
      rw [if_pos nonempty, if_pos (isSortedAndUnique_iff.mpr ascending)]
      simp only [if_pos last]
      rfl
  · intro after out success
    obtain ⟨ascending, inside, rfl, rfl⟩ := cancelDeferredSlash_ok success
    have whole := keepOthers_zero_perm ascending inside
    have gone : cancelledIn ((entriesAt 0 indices (state.unappliedSlashes era)).map
        (.cancelled era)) era = entriesAt 0 indices (state.unappliedSlashes era) := by
      unfold cancelledIn
      rw [List.filterMap_map]
      simp
    refine ⟨fun other => ?_, ?_⟩
    · exact Function.update_apply ..
    · rw [gone]
      change List.Perm _ (Function.update state.unappliedSlashes era _ era ++ _)
      rw [Function.update_self]
      exact whole.symm

end GlitchRuntime.Staking

import GlitchRuntime.Staking.BondedEras
import GlitchRuntime.Staking.Timeline

/-! # The era an offence is slashed for

A session that is over belongs to the last era that had started by then. As long as the history
depth never reaches either end of its type, the active era knows its first session, so an offence is
slashed for the era its session belongs to, or dropped when that has left the bonding period.
-/

namespace GlitchRuntime.Staking

open Lib SlashReceipt

/-! ## What depends on the clock alone -/

section Clock

variable {Account : Type} {before after : EraStorage Account}

theorem EraStorage.nextActiveEra_eq (eras : EraStorage Account) :
    eras.nextActiveEra = (eras.clock.activeEra.map (· + 1)).getD 0 := by
  unfold EraStorage.nextActiveEra EraStorage.clock
  cases eras.activeEra <;> rfl

theorem EraStorage.nextActiveEra_congr (same : after.clock = before.clock) :
    after.nextActiveEra = before.nextActiveEra := by
  rw [after.nextActiveEra_eq, same, ← before.nextActiveEra_eq]

theorem Timeline.of_clock (timeline : Timeline before) (same : after.clock = before.clock) :
    Timeline after := by
  refine timeline.shrink (congrArg EraClock.currentEra same) (congrArg EraClock.sessionIndex same)
    (EraStorage.nextActiveEra_congr same) fun era => .inr ?_
  exact congrFun (congrArg EraClock.erasStartSessionIndex same) era

/-- How far planning is ahead, and where the active era keeps its first session. -/
structure StartsKept (eras : EraStorage Account) (log : List (SlashReceipt Account)) : Prop where
  timeline : Timeline eras
  depth : eras.historyDepth ≠ 0 ∧ eras.historyDepth + 1 ≠ 0
  ahead : ∀ current ∈ eras.currentEra, current < eras.nextActiveEra ∨
    current = eras.nextActiveEra ∧ ∃ start, eras.erasStartSessionIndex current = some start
  active : ∀ index, eras.nextActiveEra = index + 1 →
    eras.erasStartSessionIndex index = (startedIn log).getLast?.map (·.2)

theorem StartsKept.of_clock {log : List (SlashReceipt Account)} (kept : StartsKept before log)
    (same : after.clock = before.clock) : StartsKept after log := by
  have depth : after.historyDepth = before.historyDepth := congrArg EraClock.historyDepth same
  have current : after.currentEra = before.currentEra := congrArg EraClock.currentEra same
  have starts : after.erasStartSessionIndex = before.erasStartSessionIndex :=
    congrArg EraClock.erasStartSessionIndex same
  constructor
  · exact kept.timeline.of_clock same
  · rw [depth]
    exact kept.depth
  · rw [current, starts, EraStorage.nextActiveEra_congr same]
    exact kept.ahead
  · rw [starts, EraStorage.nextActiveEra_congr same]
    exact kept.active

/-- Nothing that leaves the clock alone and starts no era matters. -/
theorem StartsKept.quiet {log out : List (SlashReceipt Account)} (kept : StartsKept before log)
    (same : after.clock = before.clock) (started : startedIn out = []) :
    StartsKept after (log ++ out) := by
  obtain ⟨timeline, depth, ahead, active⟩ := kept.of_clock same
  refine ⟨timeline, depth, ahead, ?_⟩
  rw [startedIn_append, started, List.append_nil]
  exact active

/-- Clearing eras forgets no first session after them. -/
theorem clearEras_starts (eras : EraStorage Account) {first count era : ℕ}
    (after : first + count ≤ era) :
    (clearEras eras first count).erasStartSessionIndex era = eras.erasStartSessionIndex era := by
  induction count generalizing eras first with
  | zero => rfl
  | succ count ih =>
    rw [clearEras, ih _ (by omega), clearEraInformation_erasStartSessionIndex, if_neg (by omega)]

/-- A history depth that does not go to either end keeps the first sessions that matter. -/
theorem StartsKept.setHistoryDepth {log : List (SlashReceipt Account)} (kept : StartsKept before log)
    {depth : UInt32} (keeps : depth ≠ 0 ∧ depth + 1 ≠ 0) :
    StartsKept (setHistoryDepth before depth) log := by
  unfold Staking.setHistoryDepth
  split
  · exact kept
  · next current planned =>
    have positive : ∀ depth : UInt32, depth ≠ 0 → 1 ≤ depth.toNat := by
      intro depth nonzero
      rw [Nat.one_le_iff_ne_zero]
      exact fun zero => nonzero (UInt32.toNat_inj.mp zero)
    have early := positive _ kept.depth.1
    have late := positive _ keeps.1
    have recent : ∀ era, current ≤ era + 1 → (clearEras before (before.firstEra current)
        (current - depth.toNat - before.firstEra current)).erasStartSessionIndex era =
          before.erasStartSessionIndex era := by
      intro era bound
      rcases Nat.eq_zero_or_pos current with rfl | some
      · have none : 0 - depth.toNat - before.firstEra 0 = 0 := by omega
        rw [none]
        rfl
      · apply clearEras_starts
        unfold EraStorage.firstEra
        omega
    obtain ⟨-, -, sameCurrent, sameActive, sameSession, starts, -⟩ := clearEras_spec before
      (before.firstEra current) (current - depth.toNat - before.firstEra current)
    dsimp only
    generalize clearEras before (before.firstEra current)
      (current - depth.toNat - before.firstEra current) = cleared at *
    have next : ({ cleared with historyDepth := depth } : EraStorage Account).nextActiveEra =
        before.nextActiveEra := by
      unfold EraStorage.nextActiveEra
      rw [sameActive]
    refine ⟨kept.timeline.shrink sameCurrent sameSession next starts, keeps, ?_, ?_⟩
    · rw [next]
      intro other now
      obtain rfl := Option.some.inj (planned.symm.trans (sameCurrent.symm.trans now))
      change _ ∨ _ ∧ ∃ start, cleared.erasStartSessionIndex current = some start
      rw [recent current (Nat.le_succ _)]
      exact kept.ahead current planned
    · rw [next]
      intro index now
      obtain ⟨other, isCurrent, bound⟩ := kept.timeline.active now
      obtain rfl := Option.some.inj (planned.symm.trans isCurrent)
      have close : current ≤ index + 1 := by
        rcases kept.ahead current planned with below | ⟨here, -⟩
        · omega
        · omega
      exact (recent index close).trans (kept.active index now)

/-- The same between the start of a session and the planning of the next but one. -/
structure JustStarted (eras : EraStorage Account) (session : ℕ)
    (log : List (SlashReceipt Account)) : Prop where
  started : Started eras session
  depth : eras.historyDepth ≠ 0 ∧ eras.historyDepth + 1 ≠ 0
  behind : ∀ current ∈ eras.currentEra, current < eras.nextActiveEra
  active : ∀ index, eras.nextActiveEra = index + 1 →
    eras.erasStartSessionIndex index = (startedIn log).getLast?.map (·.2)

theorem JustStarted.of_clock {session : ℕ} {log : List (SlashReceipt Account)}
    (kept : JustStarted before session log) (same : after.clock = before.clock) :
    JustStarted after session log := by
  have depth : after.historyDepth = before.historyDepth := congrArg EraClock.historyDepth same
  have current : after.currentEra = before.currentEra := congrArg EraClock.currentEra same
  have index : after.sessionIndex = before.sessionIndex := congrArg EraClock.sessionIndex same
  have starts : after.erasStartSessionIndex = before.erasStartSessionIndex :=
    congrArg EraClock.erasStartSessionIndex same
  have next := EraStorage.nextActiveEra_congr same
  obtain ⟨planned, active, fresh, now⟩ := kept.started
  refine ⟨⟨?_, ?_, ?_, ?_⟩, ?_, ?_, ?_⟩
  · rw [starts, current]
    exact planned
  · rw [next, current]
    exact active
  · rw [next, starts]
    exact fresh
  · exact index.trans now
  · rw [depth]
    exact kept.depth
  · rw [current, next]
    exact kept.behind
  · rw [starts, next]
    exact kept.active

/-- Starting the next session keeps all of it, with the era that starts. -/
theorem StartsKept.start {log out : List (SlashReceipt Account)} {session : ℕ}
    (kept : StartsKept before log) (index : before.sessionIndex = some session)
    (started : startedIn out = if before.StartsEra (session + 1) then
      [(before.nextActiveEra, session + 1)] else []) :
    JustStarted (startSession { before with sessionIndex := some (session + 1) } (session + 1))
      (session + 1) (log ++ out) := by
  have begun := kept.timeline.started index
  set moved : EraStorage Account := { before with sessionIndex := some (session + 1) }
  cases upcoming : before.erasStartSessionIndex before.nextActiveEra with
  | none =>
    have same : startSession moved (session + 1) = moved := by
      apply startSession_of_none
      exact upcoming
    have quiet : startedIn out = [] := by
      rw [started, if_neg]
      rintro ⟨start, present, -⟩
      cases upcoming.symm.trans present
    rw [same] at begun ⊢
    refine ⟨begun, kept.depth, ?_, ?_⟩
    · intro current planned
      rcases kept.ahead current planned with below | ⟨rfl, start, present⟩
      · exact below
      · cases upcoming.symm.trans present
    · rw [startedIn_append, quiet, List.append_nil]
      exact kept.active
  | some start =>
    obtain ⟨rfl, current⟩ := kept.timeline.upcoming index upcoming
    have same : startSession moved (session + 1) = startEra moved :=
      startSession_of_le upcoming le_rfl
    have now : startedIn out = [(before.nextActiveEra, session + 1)] := by
      rw [started, if_pos ⟨_, upcoming, le_rfl⟩]
    rw [same] at begun ⊢
    refine ⟨begun, kept.depth, ?_, ?_⟩
    · intro other planned
      obtain rfl := Option.some.inj (current.symm.trans planned)
      exact Nat.lt_succ_self _
    · intro other next
      obtain rfl : before.nextActiveEra = other := Nat.succ.inj next
      rw [startedIn_append, now, List.getLast?_append]
      exact upcoming

/-- What starting a session does to the clock, the clock decides. -/
theorem startSession_congr (same : after.clock = before.clock) (session : ℕ) :
    (startSession after session).clock = (startSession before session).clock := by
  have starts : after.erasStartSessionIndex after.nextActiveEra =
      before.erasStartSessionIndex before.nextActiveEra := by
    rw [EraStorage.nextActiveEra_congr same]
    exact congrFun (congrArg EraClock.erasStartSessionIndex same) _
  have next : (startEra after).clock = (startEra before).clock := by
    change { after.clock with activeEra := some after.nextActiveEra } =
      { before.clock with activeEra := some before.nextActiveEra }
    rw [same, EraStorage.nextActiveEra_congr same]
  cases upcoming : before.erasStartSessionIndex before.nextActiveEra with
  | none => rw [startSession_of_none (starts.trans upcoming), startSession_of_none upcoming, same]
  | some start =>
    rcases le_or_gt start session with due | early
    · rw [startSession_of_le (starts.trans upcoming) due, startSession_of_le upcoming due, next]
    · rw [startSession_of_lt (starts.trans upcoming) early, startSession_of_lt upcoming early, same]

theorem EraStorage.startsEra_congr (same : after.clock = before.clock) (session : ℕ) :
    after.StartsEra session ↔ before.StartsEra session := by
  unfold EraStorage.StartsEra
  rw [EraStorage.nextActiveEra_congr same]
  have starts : after.erasStartSessionIndex = before.erasStartSessionIndex :=
    congrArg EraClock.erasStartSessionIndex same
  rw [starts]

end Clock

/-! ## Planning -/

section Planning

variable {Account : Type} [DecidableEq Account] {config : Config Account} {state after : State config}
  {session : ℕ}

/-- What planning keeps of the first sessions, while the history depth does not wrap. -/
theorem Planned.keeps (planned : Planned state session after) (wraps : state.historyDepth + 1 ≠ 0) :
    after.currentEra = state.currentEra ∧
        after.erasStartSessionIndex = state.erasStartSessionIndex ∨
      after.currentEra = some state.nextPlannedEra ∧
        after.erasStartSessionIndex state.nextPlannedEra = some session ∧
        ∀ era, era < state.nextPlannedEra →
          state.nextPlannedEra ≤ era + state.historyDepth.toNat →
          after.erasStartSessionIndex era = state.erasStartSessionIndex era := by
  have advanced : ∀ era, (advanceEra state.toEraStorage session).erasStartSessionIndex era =
      if era = state.nextPlannedEra then some session else state.erasStartSessionIndex era :=
    fun _ => Function.update_apply ..
  cases planned with
  | none => exact .inl ⟨rfl, rfl⟩
  | bare first =>
    right
    refine ⟨rfl, ?_, ?_⟩
    · rw [advanced, if_pos rfl]
    · intro era below _
      rw [advanced, if_neg below.ne]
  | era clipped prefs mode =>
    right
    have kept : (state.historyDepth + 1).toNat = state.historyDepth.toNat + 1 := by
      have bound := state.historyDepth.toNat_lt
      have nonzero : (state.historyDepth + 1).toNat ≠ 0 := fun zero => wraps (UInt32.toNat_inj.mp zero)
      rw [UInt32.toNat_add, UInt32.toNat_one] at nonzero ⊢
      omega
    have starts : ∀ era, state.nextPlannedEra ≤ era + state.historyDepth.toNat →
        (pruneEra (advanceEra state.toEraStorage session)
          state.nextPlannedEra).erasStartSessionIndex era =
        (advanceEra state.toEraStorage session).erasStartSessionIndex era := by
      intro era recent
      unfold pruneEra
      dsimp only
      split_ifs with due
      · rw [clearEraInformation_erasStartSessionIndex, if_neg]
        change (state.historyDepth + 1).toNat ≤ _ at due
        change ¬ era = _ - (state.historyDepth + 1).toNat
        omega
      · rfl
    refine ⟨?_, ?_, ?_⟩
    · change (pruneEra _ _).currentEra = _
      unfold pruneEra
      dsimp only
      split_ifs <;> rfl
    · change (pruneEra _ _).erasStartSessionIndex _ = _
      rw [starts _ (Nat.le_add_right _ _), advanced, if_pos rfl]
    · intro era below recent
      change (pruneEra _ _).erasStartSessionIndex _ = _
      rw [starts era recent, advanced, if_neg below.ne]

/-- Planning the session after the next brings all of it back. -/
theorem JustStarted.planned {log : List (SlashReceipt Account)}
    (kept : JustStarted state.toEraStorage session log)
    (election : Option (Supports Account)) :
    StartsKept (newSession state (session + 1) election).toEraStorage log := by
  have timeline := kept.started.newSession election
  have planned := newSession_planned state (session + 1) election
  have depth := planned.historyDepth
  have keeps := planned.keeps kept.depth.2
  obtain ⟨active, -, -⟩ := planned.starts
  have next : (newSession state (session + 1) election).nextActiveEra = state.nextActiveEra := by
    unfold EraStorage.nextActiveEra
    rw [active]
  have positive : 1 ≤ state.historyDepth.toNat := by
    rw [Nat.one_le_iff_ne_zero]
    exact fun zero => kept.depth.1 (UInt32.toNat_inj.mp zero)
  refine ⟨timeline, depth ▸ kept.depth, ?_, ?_⟩
  · rw [next]
    intro current now
    rcases keeps with ⟨same, -⟩ | ⟨same, start, -⟩
    · exact .inl (kept.behind current (same ▸ now))
    · obtain rfl := Option.some.inj (same.symm.trans now)
      have bound : state.nextPlannedEra ≤ state.nextActiveEra := by
        unfold EraStorage.nextPlannedEra
        cases before : state.currentEra with
        | none => exact Nat.zero_le _
        | some current => exact kept.behind current before
      rcases bound.lt_or_eq with below | here
      · exact .inl below
      · exact .inr ⟨here, _, start⟩
  · rw [next]
    intro index now
    rw [← kept.active index now]
    obtain ⟨current, before, bound⟩ := kept.started.active now
    have below := kept.behind current before
    have advanced : state.nextPlannedEra = current + 1 := by
      unfold EraStorage.nextPlannedEra
      rw [before]
    rcases keeps with ⟨-, same⟩ | ⟨-, -, same⟩
    · rw [same]
    · exact same index (by omega) (by omega)

end Planning

/-! ## What a step does to the clock -/

variable {Account : Type} [DecidableEq Account] {config : SlashConfig Account}

theorem computeSlash_clock (state : OffenceState config) (params : SlashParams Account) :
    (computeSlash state params).1.clock = state.clock :=
  congrArg Prod.snd (computeSlash_frame state params)

theorem applySlash_clock (state : OffenceState config) (unapplied : UnappliedSlash Account)
    (slashEra : ℕ) : (applySlash state unapplied slashEra).clock = state.clock :=
  congrArg Prod.snd (applySlash_frame state unapplied slashEra)

theorem reportOffenders_clock (activeEra slashEra : ℕ) (strategy : DisableStrategy)
    (offenders : List (OffenceDetails Account × Perbill)) (state : OffenceState config) :
    (reportOffenders activeEra slashEra strategy offenders state).1.clock = state.clock := by
  induction offenders generalizing state with
  | nil => rfl
  | cons offender rest ih =>
    simp only [reportOffenders]
    rw [ih]
    unfold reportOffender
    by_cases spared : offender.1.offender ∈ state.invulnerables
    · rw [if_pos spared]
    rw [if_neg spared]
    have computed := computeSlash_clock state
      (slashParams state activeEra slashEra strategy offender.1 offender.2)
    split
    · next after same =>
      rw [same] at computed
      exact computed
    · next after unapplied same =>
      rw [same] at computed
      dsimp only at computed ⊢
      split_ifs
      · exact (applySlash_clock ..).trans computed
      · exact computed

theorem applyEras_clock (now era count : ℕ) (state : OffenceState config) :
    (applyEras now era count state).1.clock = state.clock := by
  have applied : ∀ (era : ℕ) (waiting : List (UnappliedSlash Account)) (state : OffenceState config),
      (applyEra now era waiting state).1.clock = state.clock := by
    intro era waiting
    induction waiting with
    | nil => intro state; rfl
    | cons unapplied rest ih =>
      intro state
      simp only [applyEra]
      rw [ih, applySlash_clock]
  induction count generalizing era state with
  | zero => rfl
  | succ count ih =>
    simp only [applyEras]
    rw [ih, applied]
    rfl

theorem pushBondedEra_clock (state : OffenceState config) (activeEra session : ℕ) :
    (pushBondedEra state activeEra session).clock = state.clock := by
  have cleared : ∀ (entries : List (ℕ × ℕ)) (state : OffenceState config),
      (entries.foldl (fun state entry => clearEraMetadata state entry.1) state).clock =
        state.clock := by
    intro entries
    induction entries with
    | nil => intro state; rfl
    | cons entry rest ih =>
      intro state
      rw [List.foldl_cons, ih]
      rfl
  unfold pushBondedEra
  dsimp only
  split_ifs
  · exact cleared _ state
  · rfl

/-- Starting a session with all it does to slashes moves the clock as starting it alone. -/
theorem startSessionSlashing_clock (state : OffenceState config) (session : ℕ) :
    (startSessionSlashing state session).1.clock =
      (startSession state.toEraStorage session).clock := by
  unfold startSessionSlashing
  dsimp only
  change (if _ then startEraSlashing state session else (state, [])).1.clock = _
  split_ifs with starts
  · obtain ⟨start, upcoming, due⟩ := starts
    rw [startSession_of_le upcoming due]
    unfold startEraSlashing applyUnappliedSlashes
    dsimp only
    split
    · exact pushBondedEra_clock ..
    · exact (applyEras_clock ..).trans (pushBondedEra_clock ..)
  · cases upcoming : state.erasStartSessionIndex state.nextActiveEra with
    | none => rw [startSession_of_none upcoming]
    | some start =>
      rw [startSession_of_lt upcoming]
      by_contra late
      exact starts ⟨start, upcoming, not_lt.mp late⟩

/-- The one era that starting a session reports. -/
theorem startSessionSlashing_started (state : OffenceState config) (session : ℕ) :
    startedIn (startSessionSlashing state session).2 =
      if state.toEraStorage.StartsEra session then [(state.nextActiveEra, session)] else [] := by
  unfold startSessionSlashing
  dsimp only
  split_ifs with starts
  · unfold startEraSlashing applyUnappliedSlashes
    dsimp only
    split
    · rfl
    · next earliest reported =>
      have applies := applyEras_applies state.nextActiveEra earliest
        (state.nextActiveEra - config.slashDeferDuration - earliest)
        (pushBondedEra { state with toEraStorage := startEra state.toEraStorage }
          state.nextActiveEra session)
      change _ :: startedIn _ = _
      congr 1
      apply List.filterMap_eq_nil_iff.mpr
      intro receipt member
      obtain ⟨era, unapplied, rfl, -⟩ := applies.only receipt member
      rfl
  · rfl

/-- A rotation keeps the first sessions. -/
theorem StartsKept.rotate {state : OffenceState config} {log : List (SlashReceipt Account)}
    {session : ℕ} (kept : StartsKept state.toEraStorage log)
    (index : state.sessionIndex = some session) (rotation : Rotation Account)
    (election : Option (Supports Account)) :
    StartsKept (rotateSessionSlashing state session rotation election).1.toEraStorage
      (log ++ (rotateSessionSlashing state session rotation election).2) := by
  let opened : OffenceState config := { endSessionSlashing state session with
    sessionIndex := some (session + 1)
    sessionValidators := rotation.validators
    disabled := rotation.disabled }
  have moved : opened.clock =
      EraStorage.clock { state.toEraStorage with sessionIndex := some (session + 1) } := by
    obtain ⟨active, -, current, depth, starts⟩ := endSession_clock state.toState session
    unfold EraStorage.clock
    rw [EraClock.mk.injEq]
    exact ⟨depth, current, congrArg (Option.map _) active, rfl, starts⟩
  have started := startSessionSlashing_started opened (session + 1)
  rw [EraStorage.nextActiveEra_congr moved] at started
  simp only [EraStorage.startsEra_congr moved] at started
  have clock := (startSessionSlashing_clock opened (session + 1)).trans
    (startSession_congr moved (session + 1))
  exact ((kept.start index started).of_clock clock).planned election

/-- What genesis plans: no era, era zero for either session, or eras zero and one. -/
private theorem genesis_plans {state : State config.toConfig} {log : List (SlashReceipt Account)}
    (kept : StartsKept state.toEraStorage log) (fresh : state.sessionIndex = none)
    (first second : Option (Supports Account)) :
    let later := newSession (newSession state 0 first) 1 second
    later.nextActiveEra = 0 ∧ later.historyDepth = state.historyDepth ∧
      (later.currentEra = none ∧ later.erasStartSessionIndex 0 = none ∨
        later.currentEra = some 0 ∧ (∃ start, later.erasStartSessionIndex 0 = some start) ∨
        later.currentEra = some 1 ∧ later.erasStartSessionIndex 0 = some 0 ∧
          later.erasStartSessionIndex 1 = some 1) := by
  have noEra := kept.timeline.quiet fresh
  have noStart : state.erasStartSessionIndex 0 = none := by
    by_contra some
    obtain ⟨start, present⟩ := Option.ne_none_iff_exists'.mp some
    obtain ⟨current, planned, -⟩ := kept.timeline.planned present
    cases noEra.symm.trans planned
  have noActive : state.nextActiveEra = 0 := by
    rcases Nat.eq_zero_or_eq_succ_pred state.nextActiveEra with zero | succ
    · exact zero
    · obtain ⟨current, planned, -⟩ := kept.timeline.active succ
      cases noEra.symm.trans planned
  have early := newSession_planned state 0 first
  have earlyDepth := early.historyDepth
  have earlyKeeps := early.keeps kept.depth.2
  have late := newSession_planned (newSession state 0 first) 1 second
  have lateDepth := late.historyDepth
  have lateKeeps := late.keeps (earlyDepth.symm ▸ kept.depth.2)
  have sameActive : (newSession (newSession state 0 first) 1 second).nextActiveEra =
      state.nextActiveEra := by
    unfold EraStorage.nextActiveEra
    rw [late.starts.1, early.starts.1]
  refine ⟨sameActive.trans noActive, lateDepth.trans earlyDepth, ?_⟩
  have positive : 1 ≤ (newSession state 0 first).historyDepth.toNat := by
    rw [earlyDepth, Nat.one_le_iff_ne_zero]
    exact fun zero => kept.depth.1 (UInt32.toNat_inj.mp zero)
  have none : state.nextPlannedEra = 0 := by
    unfold EraStorage.nextPlannedEra
    rw [noEra]
  rw [noEra, none] at earlyKeeps
  rcases earlyKeeps with ⟨current, same⟩ | ⟨current, start, -⟩
  · have next : (newSession state 0 first).nextPlannedEra = 0 := by
      unfold EraStorage.nextPlannedEra
      rw [current]
    rw [current, next, same] at lateKeeps
    rcases lateKeeps with ⟨still, same⟩ | ⟨planned, start, -⟩
    · exact .inl ⟨still, same ▸ noStart⟩
    · exact .inr (.inl ⟨planned, _, start⟩)
  · have next : (newSession state 0 first).nextPlannedEra = 1 := by
      unfold EraStorage.nextPlannedEra
      rw [current]
    rw [current, next] at lateKeeps
    rcases lateKeeps with ⟨still, same⟩ | ⟨planned, second, kept⟩
    · exact .inr (.inl ⟨still, _, same ▸ start⟩)
    · exact .inr (.inr ⟨planned, (kept 0 Nat.zero_lt_one (by omega)).trans start, second⟩)

/-- Genesis keeps the first sessions. -/
theorem StartsKept.genesis {state : OffenceState config} {log : List (SlashReceipt Account)}
    (kept : StartsKept state.toEraStorage log) (fresh : state.sessionIndex = none)
    (rotation : Rotation Account) (first second : Option (Supports Account)) :
    StartsKept (genesisSessionSlashing state rotation first second).1.toEraStorage
      (log ++ (genesisSessionSlashing state rotation first second).2) := by
  have timeline := kept.timeline.genesis fresh first second
  obtain ⟨next, depth, plans⟩ := genesis_plans kept fresh first second
  unfold genesisSession at timeline
  unfold genesisSessionSlashing
  dsimp only at timeline ⊢
  set later := newSession (newSession state.toState 0 first) 1 second
  let opened : OffenceState config := { state with
    toState := { later with sessionIndex := some 0 }
    sessionValidators := rotation.validators
    disabled := rotation.disabled }
  have started := startSessionSlashing_started opened 0
  have clock := startSessionSlashing_clock opened 0
  have index : opened.nextActiveEra = 0 := next
  rw [index] at started
  refine StartsKept.of_clock ?_ clock
  change StartsKept (startSession opened.toEraStorage 0) (log ++ (startSessionSlashing opened 0).2)
  change Timeline (startSession opened.toEraStorage 0) at timeline
  have kept : opened.historyDepth ≠ 0 ∧ opened.historyDepth + 1 ≠ 0 := by
    change later.historyDepth ≠ 0 ∧ later.historyDepth + 1 ≠ 0
    rw [depth]
    exact kept.depth
  by_cases starts : opened.toEraStorage.StartsEra 0
  · rw [if_pos starts] at started
    obtain ⟨start, upcoming, due⟩ := starts
    obtain rfl := Nat.le_zero.mp due
    rw [startSession_of_le upcoming le_rfl] at timeline ⊢
    rw [index] at upcoming
    refine ⟨timeline, kept, ?_, ?_⟩
    · intro current planned
      change later.currentEra = some current at planned
      rw [startEra_nextActiveEra, index]
      rcases plans with ⟨none, -⟩ | ⟨zero, -⟩ | ⟨one, -, start⟩
      · cases none.symm.trans planned
      · obtain rfl := Option.some.inj (zero.symm.trans planned)
        exact .inl Nat.zero_lt_one
      · obtain rfl := Option.some.inj (one.symm.trans planned)
        exact .inr ⟨rfl, 1, start⟩
    · intro active isActive
      rw [startEra_nextActiveEra, index] at isActive
      obtain rfl : 0 = active := Nat.succ.inj isActive
      rw [startedIn_append, started, List.getLast?_append]
      exact upcoming
  · have early : ∀ start, later.erasStartSessionIndex 0 = some start → start ≠ 0 := by
      rintro start present rfl
      exact starts ⟨0, index.symm ▸ present, le_rfl⟩
    have same : startSession opened.toEraStorage 0 = opened.toEraStorage := by
      cases upcoming : opened.erasStartSessionIndex opened.nextActiveEra with
      | none => exact startSession_of_none upcoming 0
      | some start =>
        apply startSession_of_lt upcoming
        exact Nat.pos_of_ne_zero (early start (index ▸ upcoming))
    rw [same] at timeline ⊢
    refine ⟨timeline, kept, ?_, ?_⟩
    · intro current planned
      change later.currentEra = some current at planned
      rw [index]
      rcases plans with ⟨none, -⟩ | ⟨zero, start⟩ | ⟨-, start, -⟩
      · cases none.symm.trans planned
      · obtain rfl := Option.some.inj (zero.symm.trans planned)
        exact .inr ⟨rfl, start⟩
      · exact absurd rfl (early 0 start)
    · intro active isActive
      rw [index] at isActive
      cases isActive

/-! ## Over a run -/

/-- A call that does not set the history depth to either end of its type. -/
def OffenceCall.KeepsStarts : OffenceCall config → Prop
  | .setHistoryDepth newHistoryDepth => newHistoryDepth ≠ 0 ∧ newHistoryDepth + 1 ≠ 0
  | _ => True

/-- Reached with a history depth that never is at either end of its type. -/
def OffenceReachableWithHistory (state : OffenceState config) (log : List (SlashReceipt Account)) :
    Prop :=
  (offenceSystem config).Reachable
    (fun source => source.Initial ∧ source.historyDepth ≠ 0 ∧ source.historyDepth + 1 ≠ 0)
    OffenceCall.KeepsStarts state log

/-- Every step keeps the first sessions. -/
theorem offenceStep_startsKept {before after : OffenceState config} {call : OffenceCall config}
    {log out : List (SlashReceipt Account)} (kept : StartsKept before.toEraStorage log)
    (keeps : call.KeepsStarts) (taken : offenceStep before call = .ok (after, out)) :
    StartsKept after.toEraStorage (log ++ out) := by
  cases call with
  | genesisSession first second rotation =>
    simp only [offenceStep] at taken
    split at taken
    · next fresh =>
      obtain ⟨rfl, rfl⟩ := Prod.mk.inj (Except.ok.inj taken)
      exact kept.genesis fresh rotation first second
    · contradiction
  | rotateSession rotation election =>
    simp only [offenceStep] at taken
    split at taken
    · contradiction
    · next session index =>
      obtain ⟨rfl, rfl⟩ := Prod.mk.inj (Except.ok.inj taken)
      exact kept.rotate index rotation election
  | onFinalize now =>
    obtain ⟨rfl, rfl⟩ := Prod.mk.inj (Except.ok.inj taken)
    refine kept.quiet ?_ rfl
    dsimp only
    unfold onFinalize
    split
    · next index active =>
      unfold EraStorage.clock
      rw [active]
      rfl
    · rfl
  | setHistoryDepth depth =>
    obtain ⟨rfl, rfl⟩ := Prod.mk.inj (Except.ok.inj taken)
    rw [List.append_nil]
    exact kept.setHistoryDepth keeps
  | onOffence offenders fractions slashSession strategy =>
    simp only [offenceStep, Except.ok.injEq] at taken
    unfold onOffence at taken
    split at taken
    · obtain ⟨rfl, rfl⟩ := Prod.mk.inj taken
      exact kept.quiet rfl rfl
    · next active present =>
      split at taken
      · obtain ⟨rfl, rfl⟩ := Prod.mk.inj taken
        exact kept.quiet rfl rfl
      · next slashEra found =>
        let opened : OffenceState config := { before with
          earliestUnappliedSlash := some (before.earliestUnappliedSlash.getD active.index) }
        have clock := reportOffenders_clock active.index slashEra strategy
          (offenders.zip fractions) opened
        have reports := reportOffenders_reports active.index slashEra strategy
          (offenders.zip fractions) opened
        rw [taken] at clock reports
        exact kept.quiet clock reports.started
  | cancelDeferredSlash era indices =>
    obtain ⟨-, -, rfl, rfl⟩ := cancelDeferredSlash_ok taken
    refine kept.quiet rfl ?_
    apply List.filterMap_eq_nil_iff.mpr
    intro receipt member
    obtain ⟨unapplied, -, rfl⟩ := List.mem_map.mp member
    rfl
  | killStash stash spans =>
    simp only [offenceStep] at taken
    split at taken
    · next killed success =>
      obtain ⟨rfl, rfl⟩ := Prod.mk.inj (Except.ok.inj taken)
      simp only [killStashSlashing, bind_eq_ok, pure_eq_ok] at success
      obtain ⟨chain, done, book, -, rfl⟩ := success
      refine kept.quiet ?_ rfl
      exact congrArg EraStorage.clock (killAndUnlock_move done).eras
    · contradiction
  | setSlashRewardFraction fraction =>
    obtain ⟨rfl, rfl⟩ := Prod.mk.inj (Except.ok.inj taken)
    exact kept.quiet rfl rfl
  | setInvulnerables invulnerables =>
    obtain ⟨rfl, rfl⟩ := Prod.mk.inj (Except.ok.inj taken)
    exact kept.quiet rfl rfl
  | outside change =>
    obtain ⟨rfl, rfl⟩ := Prod.mk.inj (Except.ok.inj taken)
    exact kept.quiet rfl rfl

theorem OffenceReachableWithHistory.reachable {state : OffenceState config}
    {log : List (SlashReceipt Account)} (reached : OffenceReachableWithHistory state log) :
    OffenceReachable state log := by
  obtain ⟨source, begins, run⟩ := reached
  exact ⟨source, begins.1, run.mono fun _ _ => trivial⟩

theorem OffenceReachableWithHistory.startsKept {state : OffenceState config}
    {log : List (SlashReceipt Account)} (reached : OffenceReachableWithHistory state log) :
    StartsKept state.toEraStorage log := by
  apply Machine.Reachable.invariant
    (fun (state : OffenceState config) => StartsKept state.toEraStorage) reached
  · rintro source ⟨initial, depth⟩
    have chain := initial.chain
    have next : source.nextActiveEra = 0 := by
      unfold EraStorage.nextActiveEra
      rw [chain.activeEra]
    refine ⟨⟨?_, ?_, ?_, ?_⟩, depth, ?_, ?_⟩
    · intro era start present
      rw [chain.erasStartSessionIndex era] at present
      contradiction
    · intro index now
      cases next.symm.trans now
    · intro session start now
      rw [chain.sessionIndex] at now
      contradiction
    · intro fresh
      exact chain.currentEra
    · intro current planned
      rw [chain.currentEra] at planned
      contradiction
    · intro index now
      cases next.symm.trans now
  · intro current next log out call kept keeps taken
    exact offenceStep_startsKept kept keeps taken

/-- The era that a session belongs to: the last one that had started by then. -/
def eraOfSession (started : List (ℕ × ℕ)) (session : ℕ) : Option ℕ :=
  (started.filter (·.2 ≤ session)).getLast?.map (·.1)

/-- Of entries in ascending order, the last one from a bound on is the last one, if that is. -/
theorem getLast?_filter_le {entries : List (ℕ × ℕ)}
    (ascending : (entries.map (·.1)).Pairwise (· < ·)) (bound : ℕ) :
    (entries.filter (bound ≤ ·.1)).getLast? = entries.getLast?.filter (bound ≤ ·.1) := by
  rcases List.eq_nil_or_concat' entries with rfl | ⟨before, entry, rfl⟩
  · rfl
  · rw [List.filter_append, List.getLast?_concat]
    by_cases inside : bound ≤ entry.1
    · rw [List.filter_cons_of_pos (by simpa using inside), List.filter_nil, List.getLast?_concat]
      exact (if_pos (decide_eq_true inside)).symm
    · rw [List.map_append, List.pairwise_append] at ascending
      have none : before.filter (bound ≤ ·.1) = [] := by
        apply List.filter_eq_nil_iff.mpr
        intro other member
        have below := ascending.2.2 other.1 (List.mem_map_of_mem member) entry.1 (by simp)
        simp only [decide_eq_true_eq]
        omega
      rw [none, List.filter_cons_of_neg (by simpa using inside)]
      exact (if_neg (by simpa using inside)).symm

/-- An offence is slashed for the era that its session belongs to, or dropped if that era has left
the bonding period, whatever elections failed, were forced or came late. -/
theorem slashEraOf_eq {state : OffenceState config} {log : List (SlashReceipt Account)}
    (reached : OffenceReachableWithHistory state log) {active : ActiveEraInfo}
    (isActive : state.activeEra = some active) (slashSession : ℕ) :
    slashEraOf state active.index slashSession =
      (eraOfSession (startedIn log) slashSession).filter
        fun era => active.index ≤ era + config.bondingDuration := by
  have inv := reached.reachable.bondedInv
  have kept := reached.startsKept
  have isLast : some active.index = (startedIn log).getLast?.map (·.1) := by
    rw [← inv.active]
    exact (congrArg (Option.map _) isActive).symm
  have next : state.nextActiveEra = active.index + 1 := by
    unfold EraStorage.nextActiveEra
    rw [isActive]
  have start := kept.active active.index next
  have bonded : state.bondedEras = _ := inv.bonded
  have counting := inv.counting
  have length : (startedIn log).length = active.index + 1 := by
    rw [← inv.next]
    exact state.nextActiveEra_eq.symm.trans next
  have later := inv.later
  generalize startedIn log = started at *
  rcases List.eq_nil_or_concat' started with rfl | ⟨before, entry, rfl⟩
  · contradiction
  rw [List.getLast?_concat, Option.map_some] at isLast start
  have isLast := Option.some.inj isLast
  rw [isLast] at length start ⊢
  have ascending : ((before ++ [entry]).map (·.1)).Pairwise (· < ·) := by
    rw [counting]
    exact List.pairwise_lt_range
  have window : ∀ era : ℕ, decide (entry.1 ≤ era + config.bondingDuration) =
      decide (entry.1 - config.bondingDuration ≤ era) := fun era => by
    simp only [decide_eq_decide]
    omega
  have fromBonded : (eraOfSession (before ++ [entry]) slashSession).filter
        (fun era => entry.1 ≤ era + config.bondingDuration) =
      ((state.bondedEras.filter (·.2 ≤ slashSession)).getLast?).map (·.1) := by
    rw [bonded, length, show entry.1 + 1 - (config.bondingDuration + 1) =
      entry.1 - config.bondingDuration - 0 by omega, ← filter_counting (List.range_eq_range' ▸ counting),
      List.filter_comm, getLast?_filter_le]
    · unfold eraOfSession
      simp only [window]
      rw [Option.filter_map]
      rfl
    · exact (ascending.sublist (List.filter_sublist.map _))
  rw [fromBonded]
  unfold slashEraOf
  rw [start]
  change (if entry.2 ≤ slashSession then _ else _) = _
  split_ifs with recent
  · have short : (before ++ [entry]).length - (config.bondingDuration + 1) ≤ before.length := by
      rw [List.length_append, List.length_singleton]
      omega
    rw [bonded, List.drop_append_of_le_length short, List.filter_append,
      List.filter_cons_of_pos (by simpa using recent), List.filter_nil, List.getLast?_concat]
    rfl
  · rw [← List.head?_filter, List.filter_reverse, List.head?_reverse]

/-- In era five, session three is slashed for its era, and session one is too old. -/
theorem sixEras_slashEra :
    slashEraOf (offenceOutcome sixEras).1 5 3 = some 3 ∧
    slashEraOf (offenceOutcome sixEras).1 5 1 = none := by
  have reached : OffenceReachableWithHistory (offenceOutcome sixEras).1 (offenceOutcome sixEras).2 := by
    apply Machine.outcome_reachable
    · exact ⟨genesisOffences_initial (genesisState_initial _ _), by decide, by decide⟩
    · intro call member
      rcases List.mem_cons.mp member with rfl | again
      · trivial
      · rw [List.eq_of_mem_replicate again]
        trivial
    · decide +kernel
  have active : (offenceOutcome sixEras).1.activeEra = some ⟨5, none⟩ := by decide +kernel
  refine ⟨(slashEraOf_eq reached active 3).trans ?_, (slashEraOf_eq reached active 1).trans ?_⟩
  · decide +kernel
  · decide +kernel

end GlitchRuntime.Staking

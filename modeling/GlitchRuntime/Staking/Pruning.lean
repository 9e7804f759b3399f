import GlitchRuntime.Staking.System

/-! # What is kept of past eras

The records of an ended era only ever disappear as a whole, and what is left of them stays inside
the history: an era leaves the window of the history depth exactly as it is cleared. The one
exception are eras `2 ^ 32` behind the current one, which no history depth reaches.
-/

namespace GlitchRuntime.Staking

open Lib

variable {Account : Type}

/-- An era inside the history, or one so old that no history depth reaches it. -/
def EraStorage.Retained (eras : EraStorage Account) (era : ℕ) : Prop :=
  ∀ current, eras.currentEra = some current →
    eras.firstEra current ≤ era ∨ era + 2 ^ 32 ≤ current

/-- The records of ended eras after are those before, less some eras that lost all of them. -/
structure Prunes (before after : EraStorage Account) : Prop where
  records : ∀ era,
    (after.erasValidatorReward era = none ∧ after.erasNotClaimedReward era = none) ∨
    (after.erasValidatorReward era = before.erasValidatorReward era ∧
      after.erasNotClaimedReward era = before.erasNotClaimedReward era ∧
      after.erasRewardPoints era = before.erasRewardPoints era)
  currentEra : ∀ current, before.currentEra = some current →
    ∃ later, after.currentEra = some later ∧ current ≤ later
  nextActiveEra : before.nextActiveEra ≤ after.nextActiveEra
  retained : ∀ era, after.erasValidatorReward era ≠ none → before.Retained era →
    after.Retained era

namespace Prunes

theorem refl (eras : EraStorage Account) : Prunes eras eras where
  records _ := .inr ⟨rfl, rfl, rfl⟩
  currentEra current planned := ⟨current, planned, le_rfl⟩
  nextActiveEra := le_rfl
  retained _ _ kept := kept

/-- A reward that is left was there before. -/
theorem reward_eq {before after : EraStorage Account} (prunes : Prunes before after) {era : ℕ}
    (present : after.erasValidatorReward era ≠ none) :
    after.erasValidatorReward era = before.erasValidatorReward era := by
  rcases prunes.records era with ⟨gone, _⟩ | ⟨same, _, _⟩
  · exact absurd gone present
  · exact same

theorem trans {first second third : EraStorage Account} (left : Prunes first second)
    (right : Prunes second third) : Prunes first third where
  records era := by
    rcases right.records era with gone | ⟨reward, notClaimed, points⟩
    · exact .inl gone
    · rcases left.records era with ⟨noReward, noReserve⟩ | ⟨reward', notClaimed', points'⟩
      · exact .inl ⟨reward.trans noReward, notClaimed.trans noReserve⟩
      · exact .inr ⟨reward.trans reward', notClaimed.trans notClaimed', points.trans points'⟩
  currentEra current planned := by
    obtain ⟨middle, between, early⟩ := left.currentEra current planned
    obtain ⟨later, after, late⟩ := right.currentEra middle between
    exact ⟨later, after, early.trans late⟩
  nextActiveEra := left.nextActiveEra.trans right.nextActiveEra
  retained era present kept :=
    right.retained era present (left.retained era (right.reward_eq present ▸ present) kept)

/-- Nothing that is recorded of ended eras, and no window, has moved. -/
theorem of_same {before after : EraStorage Account}
    (reward : after.erasValidatorReward = before.erasValidatorReward)
    (notClaimed : after.erasNotClaimedReward = before.erasNotClaimedReward)
    (points : after.erasRewardPoints = before.erasRewardPoints)
    (currentEra : after.currentEra = before.currentEra)
    (depth : after.historyDepth = before.historyDepth)
    (active : before.nextActiveEra ≤ after.nextActiveEra) : Prunes before after where
  records era := .inr ⟨congrFun reward era, congrFun notClaimed era, congrFun points era⟩
  currentEra current planned := ⟨current, currentEra.trans planned, le_rfl⟩
  nextActiveEra := active
  retained era _ kept current planned := by
    have before := kept current (currentEra ▸ planned)
    rwa [EraStorage.firstEra, depth]

end Prunes

/-! ## Clearing -/

section Clear

variable (eras : EraStorage Account) (era : ℕ)

@[simp] theorem clearEraInformation_historyDepth :
    (clearEraInformation eras era).historyDepth = eras.historyDepth := rfl

@[simp] theorem clearEraInformation_currentEra :
    (clearEraInformation eras era).currentEra = eras.currentEra := rfl

@[simp] theorem clearEraInformation_activeEra :
    (clearEraInformation eras era).activeEra = eras.activeEra := rfl

@[simp] theorem clearEraInformation_sessionIndex :
    (clearEraInformation eras era).sessionIndex = eras.sessionIndex := rfl

@[simp] theorem clearEraInformation_erasValidatorReward (other : ℕ) :
    (clearEraInformation eras era).erasValidatorReward other =
      if other = era then none else eras.erasValidatorReward other :=
  Function.update_apply ..

@[simp] theorem clearEraInformation_erasNotClaimedReward (other : ℕ) :
    (clearEraInformation eras era).erasNotClaimedReward other =
      if other = era then none else eras.erasNotClaimedReward other :=
  Function.update_apply ..

@[simp] theorem clearEraInformation_erasRewardPoints (other : ℕ) :
    (clearEraInformation eras era).erasRewardPoints other =
      if other = era then default else eras.erasRewardPoints other :=
  Function.update_apply ..

@[simp] theorem clearEraInformation_erasStartSessionIndex (other : ℕ) :
    (clearEraInformation eras era).erasStartSessionIndex other =
      if other = era then none else eras.erasStartSessionIndex other :=
  Function.update_apply ..

end Clear

/-- Clearing an era prunes. -/
theorem prunes_clearEraInformation (eras : EraStorage Account) (era : ℕ) :
    Prunes eras (clearEraInformation eras era) where
  records other := by
    by_cases same : other = era
    · exact .inl ⟨by simp [same], by simp [same]⟩
    · exact .inr ⟨by simp [same], by simp [same], by simp [same]⟩
  currentEra current planned := ⟨current, planned, le_rfl⟩
  nextActiveEra := le_rfl
  retained _ _ kept := kept

/-- Clearing a range of eras prunes them, and forgets the session each of them started in. -/
theorem clearEras_spec (eras : EraStorage Account) (first count : ℕ) :
    Prunes eras (clearEras eras first count) ∧
    (clearEras eras first count).historyDepth = eras.historyDepth ∧
    (clearEras eras first count).currentEra = eras.currentEra ∧
    (clearEras eras first count).activeEra = eras.activeEra ∧
    (clearEras eras first count).sessionIndex = eras.sessionIndex ∧
    (∀ era, (clearEras eras first count).erasStartSessionIndex era = none ∨
      (clearEras eras first count).erasStartSessionIndex era = eras.erasStartSessionIndex era) ∧
    ∀ era, first ≤ era → era < first + count →
      (clearEras eras first count).erasValidatorReward era = none := by
  induction count generalizing eras first with
  | zero =>
    refine ⟨.refl _, rfl, rfl, rfl, rfl, fun _ => .inr rfl, fun era low high => ?_⟩
    omega
  | succ count ih =>
    obtain ⟨prunes, depth, current, active, session, starts, cleared⟩ :=
      ih (clearEraInformation eras first) (first + 1)
    refine ⟨(prunes_clearEraInformation eras first).trans prunes, depth, current, active, session,
      fun era => ?_, fun era low high => ?_⟩
    · rcases starts era with gone | same
      · exact .inl gone
      · by_cases here : era = first
        · exact .inl (same.trans (by simp [here]))
        · exact .inr (same.trans (by simp [here]))
    · by_cases here : era = first
      · subst here
        rcases prunes.records era with ⟨gone, _⟩ | ⟨same, _, _⟩
        · exact gone
        · exact same.trans (by simp)
      · exact cleared era (by omega) (by omega)

/-- Changing the history depth prunes what the new window leaves out. -/
theorem prunes_setHistoryDepth (eras : EraStorage Account) (depth : UInt32) :
    Prunes eras (setHistoryDepth eras depth) := by
  unfold setHistoryDepth
  split
  · exact .refl _
  · next current planned =>
    set lastKept := eras.firstEra current with lastKept_eq
    set newLastKept := current - depth.toNat with newLastKept_eq
    obtain ⟨prunes, -, sameCurrent, -, -, -, cleared⟩ :=
      clearEras_spec eras lastKept (newLastKept - lastKept)
    refine ⟨prunes.records, prunes.currentEra, prunes.nextActiveEra, fun era present kept => ?_⟩
    intro other plannedAfter
    obtain rfl : current = other :=
      Option.some.inj (planned.symm.trans (sameCurrent.symm.trans plannedAfter))
    rcases kept current planned with inside | expired
    · left
      change current - depth.toNat ≤ era
      by_contra outside
      exact present (cleared era inside (by omega))
    · exact .inr expired

/-! ## Planning -/

/-- Pruning leaves the era counters alone. -/
private theorem pruneEra_counters (eras : EraStorage Account) (planned : ℕ) :
    (pruneEra eras planned).historyDepth = eras.historyDepth ∧
    (pruneEra eras planned).currentEra = eras.currentEra ∧
    (pruneEra eras planned).activeEra = eras.activeEra ∧
    (pruneEra eras planned).sessionIndex = eras.sessionIndex ∧
    ∀ era, (pruneEra eras planned).erasStartSessionIndex era = none ∨
      (pruneEra eras planned).erasStartSessionIndex era = eras.erasStartSessionIndex era := by
  simp only [pruneEra]
  split_ifs
  · refine ⟨rfl, rfl, rfl, rfl, fun era => ?_⟩
    rw [clearEraInformation_erasStartSessionIndex]
    split_ifs
    · exact .inl rfl
    · exact .inr rfl
  · exact ⟨rfl, rfl, rfl, rfl, fun _ => .inr rfl⟩

/-- The era that leaves the history has lost its reward. -/
private theorem pruneEra_reward_eq_none (eras : EraStorage Account) {planned : ℕ}
    (due : (eras.historyDepth + 1).toNat ≤ planned) :
    (pruneEra eras planned).erasValidatorReward (planned - (eras.historyDepth + 1).toNat) = none := by
  simp only [pruneEra, if_pos due, clearEraInformation_erasValidatorReward, if_true]

/-- Advancing by an era and pruning the one that leaves the history is a pruning. -/
private theorem prunes_pruneEra (eras : EraStorage Account) (session : ℕ) :
    Prunes eras (pruneEra (advanceEra eras session) eras.nextPlannedEra) := by
  obtain ⟨depth, current, active, -, -⟩ :=
    pruneEra_counters (advanceEra eras session) eras.nextPlannedEra
  refine ⟨fun era => ?_, fun before planned => ⟨_, current, ?_⟩, ?_, fun era present kept => ?_⟩
  · simp only [pruneEra]
    split_ifs
    · exact (prunes_clearEraInformation (advanceEra eras session) _).records era
    · exact .inr ⟨rfl, rfl, rfl⟩
  · simp [EraStorage.nextPlannedEra, planned]
  · simp only [EraStorage.nextActiveEra, active]
    rfl
  · intro later plannedAfter
    obtain rfl : eras.nextPlannedEra = later :=
      Option.some.inj (current.symm.trans plannedAfter)
    rw [EraStorage.firstEra, depth]
    change eras.nextPlannedEra - eras.historyDepth.toNat ≤ era ∨ _
    cases planned : eras.currentEra with
    | none => simp [EraStorage.nextPlannedEra, planned]
    | some before =>
      have next : eras.nextPlannedEra = before + 1 := by simp [EraStorage.nextPlannedEra, planned]
      have bound := eras.historyDepth.toNat_lt
      have kept := kept before planned
      rw [EraStorage.firstEra] at kept
      rw [next] at present ⊢
      -- the only era to leave the window is the one that is cleared
      have cleared : ¬ ((eras.historyDepth + 1).toNat ≤ before + 1 ∧
          era = before + 1 - (eras.historyDepth + 1).toNat) := by
        rintro ⟨due, rfl⟩
        exact present (pruneEra_reward_eq_none (advanceEra eras session) due)
      rw [UInt32.toNat_add, UInt32.toNat_one] at cleared
      by_cases wraps : eras.historyDepth.toNat + 1 = 2 ^ 32
      · omega
      · rw [Nat.mod_eq_of_lt (by omega)] at cleared
        omega

variable [DecidableEq Account] {config : Config Account}

/-- Storing exposures changes exposures and preferences only. -/
theorem storeStakersInfo_eq (config : Config Account) (eras : EraStorage Account)
    (validators : Account → Option ValidatorPrefs)
    (exposures : List (Account × Exposure Account)) (era : ℕ) :
    ∃ clipped prefs, storeStakersInfo config eras validators exposures era =
      { eras with erasStakersClipped := clipped, erasValidatorPrefs := prefs } := by
  unfold storeStakersInfo
  induction exposures generalizing eras with
  | nil => exact ⟨_, _, rfl⟩
  | cons head rest ih =>
    obtain ⟨clipped, prefs, same⟩ := ih _
    exact ⟨clipped, prefs, same⟩

/-- What planning a session may do: nothing, a bare first era, or a new era with its stakers. -/
inductive Planned (state : State config) (session : ℕ) : State config → Prop
  | none : Planned state session state
  | bare (first : state.currentEra = none) :
      Planned state session { state with toEraStorage := advanceEra state.toEraStorage session }
  | era (clipped : ℕ → Account → Exposure Account) (prefs : ℕ → Account → ValidatorPrefs)
      (mode : Forcing) :
      Planned state session
        { state with
          toEraStorage :=
            { pruneEra (advanceEra state.toEraStorage session) state.nextPlannedEra with
              erasStakersClipped := clipped, erasValidatorPrefs := prefs, forceEra := mode } }

private theorem triggerNewEra_planned (state : State config) (session : ℕ)
    (exposures : List (Account × Exposure Account)) (mode : Forcing) :
    Planned state session { triggerNewEra state session exposures with forceEra := mode } := by
  obtain ⟨clipped, prefs, same⟩ := storeStakersInfo_eq config
    (pruneEra (advanceEra state.toEraStorage session) state.nextPlannedEra) state.validators
    exposures state.nextPlannedEra
  simp only [triggerNewEra, same]
  exact .era clipped prefs mode

private theorem tryTriggerNewEra_planned (state : State config) (session : ℕ)
    (election : Option (Supports Account)) :
    Planned state session (tryTriggerNewEra state session election).1 ∧
    ((tryTriggerNewEra state session election).2 = true → ∀ mode,
      Planned state session
        { (tryTriggerNewEra state session election).1 with forceEra := mode }) := by
  unfold tryTriggerNewEra
  cases election with
  | none => exact ⟨.none, fun planned => by cases planned⟩
  | some supports =>
    dsimp only
    split_ifs
    · cases planned : state.currentEra with
      | none => exact ⟨.bare planned, fun planned => by cases planned⟩
      | some current => exact ⟨.none, fun planned => by cases planned⟩
    · exact ⟨triggerNewEra_planned _ _ _ _, fun _ mode => triggerNewEra_planned _ _ _ mode⟩

/-- Planning a session does one of three things. -/
theorem newSession_planned (state : State config) (session : ℕ)
    (election : Option (Supports Account)) :
    Planned state session (newSession state session election) := by
  obtain ⟨tried, forced⟩ := tryTriggerNewEra_planned state session election
  unfold newSession
  cases state.currentEra with
  | none => exact tried
  | some current =>
    dsimp only
    split_ifs with due reset
    · exact forced reset.1 _
    · exact tried
    · exact .none

/-- Planning a session prunes. -/
theorem Planned.prunes {state after : State config} {session : ℕ}
    (planned : Planned state session after) :
    Prunes state.toEraStorage after.toEraStorage := by
  cases planned with
  | none => exact .refl _
  | bare first =>
    refine ⟨fun _ => .inr ⟨rfl, rfl, rfl⟩, fun _ planned => ?_, le_rfl, fun era _ _ => ?_⟩
    · cases first.symm.trans planned
    · intro current plannedAfter
      have zero : state.nextPlannedEra = 0 := by simp [EraStorage.nextPlannedEra, first]
      obtain rfl : state.nextPlannedEra = current := Option.some.inj plannedAfter
      left
      rw [zero]
      exact (Nat.zero_sub _).le.trans (Nat.zero_le _)
  | era clipped prefs mode =>
    exact (prunes_pruneEra state.toEraStorage session).trans
      (.of_same rfl rfl rfl rfl rfl le_rfl)

/-- Planning leaves the history depth alone. -/
theorem Planned.historyDepth {state after : State config} {session : ℕ}
    (planned : Planned state session after) : after.historyDepth = state.historyDepth := by
  cases planned with
  | none => rfl
  | bare _ => rfl
  | era _ _ _ => exact (pruneEra_counters (advanceEra state.toEraStorage session) _).1

/-- After planning, either no era was planned, or the next era is the current one; the sessions
eras start in are old ones, or the planned session for the era planned. -/
theorem Planned.starts {state after : State config} {session : ℕ}
    (planned : Planned state session after) :
    after.activeEra = state.activeEra ∧ after.sessionIndex = state.sessionIndex ∧
    ((after.currentEra = state.currentEra ∧
        after.erasStartSessionIndex = state.erasStartSessionIndex) ∨
      (after.currentEra = some state.nextPlannedEra ∧
        ∀ era start, after.erasStartSessionIndex era = some start →
          (era = state.nextPlannedEra ∧ start = session) ∨
          state.erasStartSessionIndex era = some start)) := by
  have advanced : ∀ era start,
      (advanceEra state.toEraStorage session).erasStartSessionIndex era = some start →
        (era = state.nextPlannedEra ∧ start = session) ∨
        state.erasStartSessionIndex era = some start := by
    intro era start present
    change Function.update state.erasStartSessionIndex state.nextPlannedEra (some session) era = _
      at present
    rw [Function.update_apply] at present
    split_ifs at present with here
    · exact .inl ⟨here, (Option.some.inj present).symm⟩
    · exact .inr present
  cases planned with
  | none => exact ⟨rfl, rfl, .inl ⟨rfl, rfl⟩⟩
  | bare first => exact ⟨rfl, rfl, .inr ⟨rfl, advanced⟩⟩
  | era clipped prefs mode =>
    obtain ⟨-, current, active, index, starts⟩ :=
      pruneEra_counters (advanceEra state.toEraStorage session) state.nextPlannedEra
    refine ⟨active, index, .inr ⟨current, fun era start present => ?_⟩⟩
    rcases starts era with gone | same
    · cases gone.symm.trans present
    · exact advanced era start (same.symm.trans present)

end GlitchRuntime.Staking

import GlitchRuntime.Staking.Pruning

/-! # The timeline of sessions and eras

The current era is at most one ahead of the active one when a session could end the active era,
whatever elections failed or were forced before: an era is planned for the session after the next,
and no era that is not yet active starts in any other session than the next.
-/

namespace GlitchRuntime.Staking

open Lib

variable {Account : Type}

/-- How sessions, current and active era stand to each other between two blocks. -/
structure Timeline (eras : EraStorage Account) : Prop where
  planned : ∀ {era start}, eras.erasStartSessionIndex era = some start →
    ∃ current, eras.currentEra = some current ∧ era ≤ current
  active : ∀ {index}, eras.nextActiveEra = index + 1 →
    ∃ current, eras.currentEra = some current ∧ index ≤ current
  /-- An era that is to become active next starts with the next session. -/
  upcoming : ∀ {session start}, eras.sessionIndex = some session →
    eras.erasStartSessionIndex eras.nextActiveEra = some start →
    start = session + 1 ∧ eras.currentEra = some eras.nextActiveEra
  quiet : eras.sessionIndex = none → eras.currentEra = none

/-- How the records of ended eras stand to each other. -/
structure Records (eras : EraStorage Account) : Prop where
  keys : ∀ era, eras.erasNotClaimedReward era = none ↔ eras.erasValidatorReward era = none
  ended : ∀ {era}, eras.erasValidatorReward era ≠ none → era + 1 < eras.nextActiveEra

theorem Records.prunes {before after : EraStorage Account} (records : Records before)
    (prunes : Prunes before after) : Records after where
  keys era := by
    rcases prunes.records era with ⟨noReward, noReserve⟩ | ⟨reward, notClaimed, -⟩
    · simp [noReward, noReserve]
    · rw [reward, notClaimed, records.keys]
  ended present :=
    (records.ended (prunes.reward_eq present ▸ present)).trans_le prunes.nextActiveEra

/-- An ended era is before the active one. -/
theorem Records.lt_active {eras : EraStorage Account} (records : Records eras) {era : ℕ}
    {info : ActiveEraInfo} (active : eras.activeEra = some info)
    (present : eras.erasValidatorReward era ≠ none) : era < info.index := by
  have ended := records.ended present
  simp only [EraStorage.nextActiveEra, active] at ended
  omega

/-- The timeline does not depend on anything but the counters, and may lose start sessions. -/
theorem Timeline.shrink {before after : EraStorage Account} (timeline : Timeline before)
    (current : after.currentEra = before.currentEra)
    (session : after.sessionIndex = before.sessionIndex)
    (active : after.nextActiveEra = before.nextActiveEra)
    (starts : ∀ era, after.erasStartSessionIndex era = none ∨
      after.erasStartSessionIndex era = before.erasStartSessionIndex era) : Timeline after := by
  have old : ∀ {era start}, after.erasStartSessionIndex era = some start →
      before.erasStartSessionIndex era = some start := by
    intro era start present
    rcases starts era with gone | same
    · cases gone.symm.trans present
    · exact same.symm.trans present
  refine ⟨fun present => ?_, fun now => ?_, fun now present => ?_, fun gone => ?_⟩
  · rw [current]
    exact timeline.planned (old present)
  · rw [current]
    exact timeline.active (active.symm.trans now)
  · rw [current, active]
    exact timeline.upcoming (session.symm.trans now) (active ▸ old present)
  · rw [current]
    exact timeline.quiet (session.symm.trans gone)

/-! ## Starting a session -/

theorem startSession_of_none {eras : EraStorage Account}
    (none : eras.erasStartSessionIndex eras.nextActiveEra = none) (session : ℕ) :
    startSession eras session = eras := by
  rw [startSession, none]

theorem startSession_of_le {eras : EraStorage Account} {start session : ℕ}
    (upcoming : eras.erasStartSessionIndex eras.nextActiveEra = some start)
    (due : start ≤ session) : startSession eras session = startEra eras := by
  rw [startSession, upcoming]
  dsimp only
  split_ifs with now skipped
  · rfl
  · rfl
  · omega

theorem startSession_of_lt {eras : EraStorage Account} {start session : ℕ}
    (upcoming : eras.erasStartSessionIndex eras.nextActiveEra = some start)
    (early : session < start) : startSession eras session = eras := by
  rw [startSession, upcoming]
  dsimp only
  rw [if_neg early.ne', if_neg early.not_gt]

/-- What starting a session may do: nothing, or make the next era active. -/
theorem startSession_cases (eras : EraStorage Account) (session : ℕ) :
    startSession eras session = eras ∨
    startSession eras session = startEra eras ∧
      ∃ start, eras.erasStartSessionIndex eras.nextActiveEra = some start := by
  cases upcoming : eras.erasStartSessionIndex eras.nextActiveEra with
  | none => exact .inl (startSession_of_none upcoming session)
  | some start =>
    rcases le_or_gt start session with due | early
    · exact .inr ⟨startSession_of_le upcoming due, start, rfl⟩
    · exact .inl (startSession_of_lt upcoming early)

@[simp] theorem startEra_nextActiveEra (eras : EraStorage Account) :
    (startEra eras).nextActiveEra = eras.nextActiveEra + 1 := rfl

/-- Starting a session moves nothing that is recorded of past eras. -/
theorem prunes_startSession (eras : EraStorage Account) (session : ℕ) :
    Prunes eras (startSession eras session) := by
  rcases startSession_cases eras session with same | ⟨same, -⟩
  · rw [same]
    exact .refl _
  · rw [same]
    exact .of_same rfl rfl rfl rfl rfl (Nat.le_succ _)

/-- Between the start of a session and the planning of the next but one. -/
structure Started (eras : EraStorage Account) (session : ℕ) : Prop where
  planned : ∀ {era start}, eras.erasStartSessionIndex era = some start →
    ∃ current, eras.currentEra = some current ∧ era ≤ current
  active : ∀ {index}, eras.nextActiveEra = index + 1 →
    ∃ current, eras.currentEra = some current ∧ index ≤ current
  fresh : eras.erasStartSessionIndex eras.nextActiveEra = none
  session : eras.sessionIndex = some session

/-- Once a session has started, no later era is planned. -/
theorem Timeline.started {eras : EraStorage Account} (timeline : Timeline eras) {session : ℕ}
    (index : eras.sessionIndex = some session) :
    Started (startSession { eras with sessionIndex := some (session + 1) } (session + 1))
      (session + 1) := by
  set moved : EraStorage Account := { eras with sessionIndex := some (session + 1) }
  cases upcoming : eras.erasStartSessionIndex eras.nextActiveEra with
  | none =>
    have same : startSession moved (session + 1) = moved := by
      apply startSession_of_none
      exact upcoming
    rw [same]
    exact ⟨timeline.planned, timeline.active, upcoming, rfl⟩
  | some start =>
    obtain ⟨rfl, current⟩ := timeline.upcoming index upcoming
    have same : startSession moved (session + 1) = startEra moved :=
      startSession_of_le upcoming le_rfl
    rw [same]
    refine ⟨timeline.planned, fun now => ⟨_, current, ?_⟩, ?_, rfl⟩
    · exact (Nat.succ.inj now).ge
    · change eras.erasStartSessionIndex (eras.nextActiveEra + 1) = none
      by_contra present
      obtain ⟨later, early⟩ := Option.ne_none_iff_exists'.mp present
      obtain ⟨now, planned, bound⟩ := timeline.planned early
      obtain rfl : eras.nextActiveEra = now := Option.some.inj (current.symm.trans planned)
      omega

variable [DecidableEq Account] {config : Config Account}

/-- Planning the session after the next brings the timeline back. -/
theorem Started.newSession {state : State config} {session : ℕ}
    (started : Started state.toEraStorage session) (election : Option (Supports Account)) :
    Timeline (newSession state (session + 1) election).toEraStorage := by
  have planning := newSession_planned state (session + 1) election
  set after := Staking.newSession state (session + 1) election
  obtain ⟨active, index, starts⟩ := planning.starts
  have sameActive : after.nextActiveEra = state.nextActiveEra := by
    simp only [EraStorage.nextActiveEra, active]
  have bounded : ∀ {current}, state.currentEra = some current →
      ∃ later, after.currentEra = some later ∧ current ≤ later :=
    fun planned => planning.prunes.currentEra _ planned
  have activeBound : ∀ {index}, after.nextActiveEra = index + 1 →
      ∃ current, after.currentEra = some current ∧ index ≤ current := by
    intro index now
    obtain ⟨current, planned, bound⟩ := started.active (sameActive.symm.trans now)
    obtain ⟨later, plannedAfter, grows⟩ := bounded planned
    exact ⟨later, plannedAfter, bound.trans grows⟩
  have quiet : after.sessionIndex = none → after.currentEra = none := by
    intro gone
    cases gone.symm.trans (index.trans started.session)
  rcases starts with ⟨current, same⟩ | ⟨current, same⟩
  · refine ⟨fun present => ?_, activeBound, fun _ present => ?_, quiet⟩
    · rw [current]
      exact started.planned (same ▸ present)
    · rw [sameActive, same, started.fresh] at present
      contradiction
  · refine ⟨fun present => ⟨_, current, ?_⟩, activeBound, fun now present => ?_, quiet⟩
    · rcases same _ _ present with ⟨rfl, -⟩ | old
      · exact le_rfl
      · obtain ⟨before, planned, bound⟩ := started.planned old
        simp only [EraStorage.nextPlannedEra, planned]
        omega
    · rw [sameActive] at present ⊢
      rcases same _ _ present with ⟨here, rfl⟩ | old
      · obtain rfl := Option.some.inj (started.session.symm.trans (index.symm.trans now))
        exact ⟨rfl, here ▸ current⟩
      · cases old.symm.trans started.fresh

/-- After planning sessions zero and one, either era zero is current and starts in one of them, or
era one is current and each era starts in the session of its index. -/
private theorem genesis_starts {state : State config} (timeline : Timeline state.toEraStorage)
    (fresh : state.sessionIndex = none) (first second : Option (Supports Account)) :
    let later := newSession (newSession state 0 first) 1 second
    later.nextActiveEra = 0 ∧ ∀ era start, later.erasStartSessionIndex era = some start →
      ∃ current, later.currentEra = some current ∧ era ≤ current ∧
        (current = 0 ∧ start ≤ 1 ∨ current = 1 ∧ start = era) := by
  have noEra := timeline.quiet fresh
  have noStart : ∀ era start, state.erasStartSessionIndex era ≠ some start := by
    intro era start present
    obtain ⟨current, planned, -⟩ := timeline.planned present
    cases noEra.symm.trans planned
  have noActive : state.nextActiveEra = 0 := by
    rcases Nat.eq_zero_or_eq_succ_pred state.nextActiveEra with zero | succ
    · exact zero
    · obtain ⟨current, planned, -⟩ := timeline.active succ
      cases noEra.symm.trans planned
  have next : state.nextPlannedEra = 0 := by simp [EraStorage.nextPlannedEra, noEra]
  obtain ⟨active, -, starts⟩ := (newSession_planned state 0 first).starts
  set middle := newSession state 0 first
  obtain ⟨active', -, starts'⟩ := (newSession_planned middle 1 second).starts
  set later := newSession middle 1 second
  refine ⟨?_, fun era start present => ?_⟩
  · rw [← noActive]
    simp only [EraStorage.nextActiveEra, active, active']
  rw [noEra, next] at starts
  rcases starts with ⟨current, same⟩ | ⟨current, same⟩
  · -- the first election failed
    have next' : middle.nextPlannedEra = 0 := by simp [EraStorage.nextPlannedEra, current]
    rw [current, next'] at starts'
    rcases starts' with ⟨-, same'⟩ | ⟨current', same'⟩
    · rw [same', same] at present
      exact (noStart _ _ present).elim
    · rcases same' era start present with ⟨rfl, rfl⟩ | old
      · exact ⟨0, current', le_rfl, .inl ⟨rfl, le_rfl⟩⟩
      · exact (noStart _ _ (same ▸ old)).elim
  · have early : ∀ era start, middle.erasStartSessionIndex era = some start →
        era = 0 ∧ start = 0 := fun era start present =>
      (same era start present).resolve_right (noStart _ _)
    have next' : middle.nextPlannedEra = 1 := by simp [EraStorage.nextPlannedEra, current]
    rw [current, next'] at starts'
    rcases starts' with ⟨current', same'⟩ | ⟨current', same'⟩
    · obtain ⟨rfl, rfl⟩ := early era start (same' ▸ present)
      exact ⟨0, current', le_rfl, .inl ⟨rfl, Nat.zero_le _⟩⟩
    · rcases same' era start present with ⟨rfl, rfl⟩ | old
      · exact ⟨1, current', le_rfl, .inr ⟨rfl, rfl⟩⟩
      · obtain ⟨rfl, rfl⟩ := early era start old
        exact ⟨1, current', Nat.zero_le _, .inr ⟨rfl, rfl⟩⟩

/-- Genesis plans sessions zero and one and starts session zero. -/
theorem Timeline.genesis {state : State config} (timeline : Timeline state.toEraStorage)
    (fresh : state.sessionIndex = none) (first second : Option (Supports Account)) :
    Timeline (genesisSession state first second).toEraStorage := by
  obtain ⟨active, starts⟩ := genesis_starts timeline fresh first second
  unfold genesisSession
  set later := newSession (newSession state 0 first) 1 second
  have planned : ∀ {era start}, later.erasStartSessionIndex era = some start →
      ∃ current, later.currentEra = some current ∧ era ≤ current := by
    intro era start present
    obtain ⟨current, now, bound, -⟩ := starts era start present
    exact ⟨current, now, bound⟩
  set moved : EraStorage Account := { later.toEraStorage with sessionIndex := some 0 }
  change Timeline (startSession moved 0)
  have next : moved.nextActiveEra = 0 := active
  have waits : (∀ start, later.erasStartSessionIndex 0 = some start → start ≠ 0) →
      Timeline moved := by
    intro late
    refine ⟨planned, fun now => ?_, fun now present => ?_, fun gone => by cases gone⟩
    · cases next.symm.trans now
    · obtain rfl := Option.some.inj now
      rw [next] at present ⊢
      obtain ⟨current, now, -, cases⟩ := starts 0 _ present
      have := late _ present
      rcases cases with ⟨rfl, bound⟩ | ⟨rfl, zero⟩
      · exact ⟨by omega, now⟩
      · contradiction
  cases upcoming : later.erasStartSessionIndex 0 with
  | none =>
    have same : startSession moved 0 = moved := startSession_of_none (next ▸ upcoming) _
    rw [same]
    apply waits
    intro start present
    cases upcoming.symm.trans present
  | some start =>
    have due : moved.erasStartSessionIndex moved.nextActiveEra = some start := by
      rw [next]
      exact upcoming
    rcases Nat.eq_zero_or_pos start with rfl | late
    · rw [startSession_of_le due le_rfl]
      obtain ⟨current, now, -, -⟩ := starts 0 0 upcoming
      refine ⟨planned, fun one => ⟨current, now, ?_⟩, fun index present => ?_,
        fun gone => by cases gone⟩
      · change moved.nextActiveEra + 1 = _ at one
        omega
      · obtain rfl := Option.some.inj index
        change later.erasStartSessionIndex (moved.nextActiveEra + 1) = _ at present
        change _ ∧ later.currentEra = some (moved.nextActiveEra + 1)
        rw [next] at present ⊢
        obtain ⟨current, now, bound, cases⟩ := starts _ _ present
        rcases cases with ⟨rfl, -⟩ | ⟨rfl, same⟩
        · omega
        · exact ⟨same, now⟩
    · rw [startSession_of_lt due late]
      apply waits
      intro other present
      obtain rfl := Option.some.inj (upcoming.symm.trans present)
      exact late.ne'

end GlitchRuntime.Staking

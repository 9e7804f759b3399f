import GlitchRuntime.Staking.Effects

/-! # The reserve window is the claim window

At the end of the active era the current era is exactly one ahead, so the reserves that are added
up over `[active - (depth - 1), active)` are those of the eras that a payout still accepts by
`[current - depth, current]`. No payable reserve is left out, and no expired one is counted.
-/

namespace GlitchRuntime.Staking

open Lib

/-! ## The history depth over a run -/

section HistoryDepth

variable {Account : Type}

private theorem startSession_historyDepth (eras : EraStorage Account) (session : ℕ) :
    (startSession eras session).historyDepth = eras.historyDepth := by
  rcases startSession_cases eras session with same | ⟨same, -⟩
  · rw [same]
  · rw [same]
    rfl

variable [DecidableEq Account] {config : Config Account}

private theorem endSession_historyDepth (state : State config) (session : ℕ) :
    (endSession state session).historyDepth = state.historyDepth := by
  unfold endSession endEra
  split
  · rfl
  · split
    · rfl
    · simp only [setEraReward, (triggerWallet_spec state).1]

/-- Only `set_history_depth` changes the history depth. -/
theorem step_historyDepth {before after : State config} {call : Call config}
    {out : List (PayoutReceipt Account)} (success : step before call = .ok (after, out)) :
    after.historyDepth = before.historyDepth ∨ call = .setHistoryDepth after.historyDepth := by
  cases step_stepped success with
  | @depthSet depth =>
    unfold setHistoryDepth
    split
    · exact .inl rfl
    · exact .inr rfl
  | @genesis first second =>
    left
    exact (startSession_historyDepth _ 0).trans
      ((newSession_planned _ 1 second).historyDepth.trans
        (newSession_planned before 0 first).historyDepth)
  | @rotated session election =>
    left
    exact (newSession_planned _ (session + 2) election).historyDepth.trans
      ((startSession_historyDepth _ (session + 1)).trans (endSession_historyDepth before session))
  | @finalized now =>
    obtain ⟨activeEra, same, -⟩ := onFinalize_eq before.toEraStorage now
    left
    rw [same]
  | rewarded =>
    left
    unfold rewardByIds
    split
    · rfl
    · rfl
  | forced => exact .inl rfl
  | bonding move =>
    left
    rw [move.eras]
  | paidOut checked paid =>
    left
    rw [paid.eras]
    rfl
  | aside eras =>
    left
    rw [eras]

/-- A depth that is never set to zero is never zero. -/
theorem ReachableWithHistory.historyDepth_ne_zero {state : State config}
    {log : List (PayoutReceipt Account)} (reachable : ReachableWithHistory state log) :
    state.historyDepth ≠ 0 := by
  refine Machine.Reachable.invariant (fun state _ => state.historyDepth ≠ 0) reachable
    (fun _ begins => begins.2) ?_
  intro current next log out call positive keeps success
  rcases step_historyDepth success with same | set
  · rwa [same]
  · subst set
    exact keeps

end HistoryDepth

/-! ## The two windows -/

section Windows

variable {Account : Type}

/-- The eras whose reserve `get_total_not_claimed_reward` adds to its result. -/
def summedEras (eras : EraStorage Account) (currentEra : ℕ) : List ℕ :=
  (List.range' (eras.firstReserved currentEra) (currentEra - eras.firstReserved currentEra)).filter
    fun era => (eras.erasNotClaimedReward era).isSome

private theorem sumNotClaimedReward_eq (eras : EraStorage Account) (first count : ℕ) :
    sumNotClaimedReward eras first count =
      (((List.range' first count).filter fun era => (eras.erasNotClaimedReward era).isSome).map
        fun era => (eras.erasNotClaimedReward era).getD 0).sum := by
  induction count generalizing first with
  | zero => rfl
  | succ count ih =>
    rw [sumNotClaimedReward, ih, List.range'_succ, List.filter_cons]
    cases present : eras.erasNotClaimedReward first with
    | none => simp
    | some reward => simp [present]

/-- The loop adds up the reserves of exactly these eras. -/
theorem getTotalNotClaimedReward_eq (eras : EraStorage Account) (currentEra : ℕ) :
    getTotalNotClaimedReward eras currentEra =
      ((summedEras eras currentEra).map fun era => (eras.erasNotClaimedReward era).getD 0).sum :=
  sumNotClaimedReward_eq eras _ _

theorem mem_summedEras {eras : EraStorage Account} {currentEra era : ℕ} :
    era ∈ summedEras eras currentEra ↔ eras.firstReserved currentEra ≤ era ∧ era < currentEra ∧
      eras.erasNotClaimedReward era ≠ none := by
  rw [summedEras, List.mem_filter, List.mem_range'_1, Option.isSome_iff_ne_none]
  constructor
  · rintro ⟨⟨low, high⟩, present⟩
    exact ⟨low, by omega, present⟩
  · rintro ⟨low, high, present⟩
    exact ⟨⟨low, by omega⟩, present⟩

/-- With a positive depth, the two first eras agree one era apart. -/
theorem firstReserved_eq_firstEra {eras : EraStorage Account} (positive : eras.historyDepth ≠ 0)
    (active : ℕ) : eras.firstReserved active = eras.firstEra (active + 1) := by
  have nonzero : eras.historyDepth.toNat ≠ 0 := fun zero => positive (UInt32.toNat_inj.mp zero)
  have one_le : (1 : UInt32) ≤ eras.historyDepth := by
    rw [UInt32.le_iff_toNat_le, UInt32.toNat_one]
    exact Nat.one_le_iff_ne_zero.mpr nonzero
  rw [EraStorage.firstReserved, EraStorage.firstEra, UInt32.toNat_sub_of_le _ _ one_le,
    UInt32.toNat_one]
  omega

end Windows

variable {Account : Type} [DecidableEq Account] {config : Config Account}

/-- When the active era ends in a reachable state, the reserves that are added up are exactly those
of the earlier eras that have a reward and pass the era check of a payout, which refuses all others
as invalid. -/
theorem endEra_window {state : State config} {log : List (PayoutReceipt Account)}
    (reachable : ReachableWithHistory state log) {session : ℕ} {info : ActiveEraInfo}
    (index : state.sessionIndex = some session)
    (ending : state.endingEra session = some info) :
    (∀ era, era ∈ summedEras state.toEraStorage info.index ↔
      era < info.index ∧ state.erasValidatorReward era ≠ none ∧ state.InWindow era) ∧
    (∀ era validatorStash, state.InWindow era ∧ state.erasValidatorReward era ≠ none ↔
      checkPayout state validatorStash era ≠ .error .invalidEraToReward) ∧
    getTotalNotClaimedReward state.toEraStorage info.index =
      ((summedEras state.toEraStorage info.index).map
        fun era => (state.erasNotClaimedReward era).getD 0).sum := by
  have consistent := reachable.reachable.consistent
  have current := consistent.current_of_ending index ending
  have first := firstReserved_eq_firstEra reachable.historyDepth_ne_zero info.index
  refine ⟨fun era => ?_, fun era stash => ?_, getTotalNotClaimedReward_eq _ _⟩
  swap
  · exact (not_iff_comm.mp (checkPayout_invalidEra_iff state stash era).symm).symm
  rw [mem_summedEras, ne_eq, consistent.records.keys era, first]
  constructor
  · rintro ⟨low, high, present⟩
    exact ⟨high, present, info.index + 1, current, by omega, low⟩
  · rintro ⟨high, present, later, planned, -, low⟩
    obtain rfl := Option.some.inj (current.symm.trans planned)
    exact ⟨low, high, present⟩

/-- Four eras: the election after the second fails, and the depth is cut to three between the
planning of the fourth and the end of the third. -/
def fourEras : List (Call smallConfig) :=
  [.genesisSession (some quartet) (some quartet), .onFinalize 5, .rotateSession (some quartet),
    .onFinalize 6, .rotateSession none, .onFinalize 7, .rotateSession (some quartet),
    .setHistoryDepth 3, .onFinalize 8, .rotateSession (some quartet), .onFinalize 9]

/-- Era zero left the history, and the two eras after it are added up as the fourth ends. -/
theorem fourEras_window :
    summedEras (outcome fourEras).1.toEraStorage 3 = [1, 2] ∧
    (∀ era, era ∈ summedEras (outcome fourEras).1.toEraStorage 3 ↔
      era < 3 ∧ (outcome fourEras).1.erasValidatorReward era ≠ none ∧
        (outcome fourEras).1.InWindow era) ∧
    checkPayout (outcome fourEras).1 10 0 = .error .invalidEraToReward := by
  have reachable := outcome_reachableWithHistory fourEras
    (by simp [fourEras, Call.KeepsHistory]) (by decide +kernel)
  have index : (outcome fourEras).1.sessionIndex = some 4 := by decide +kernel
  have ending : (outcome fourEras).1.endingEra 4 = some ⟨3, some 9⟩ := by decide +kernel
  obtain ⟨window, accepts, -⟩ := endEra_window reachable index ending
  refine ⟨by decide +kernel, window, ?_⟩
  have gone : (outcome fourEras).1.erasValidatorReward 0 = none := by decide +kernel
  by_contra accepted
  exact ((accepts 0 10).mpr accepted).2 gone

end GlitchRuntime.Staking

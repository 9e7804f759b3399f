import GlitchRuntime.Staking.Deferral

/-! # Offending validators

The offenders of an era are kept in ascending order of their indices, so a binary search finds them.
Those that were to be disabled stay so until the era ends, whatever the session pallet re-enables
between two sessions.
-/

namespace GlitchRuntime.Staking

open Lib

/-! ## A list in ascending order -/

/-- A search goes on behind the entries that are too small. -/
theorem searchOffender_cons (head : ℕ × Bool) (rest : List (ℕ × Bool)) (index : ℕ) :
    searchOffender (head :: rest) index =
      if index ≤ head.1 then (if head.1 = index then .ok 0 else .error 0)
      else match searchOffender rest index with
        | .ok position => .ok (position + 1)
        | .error position => .error (position + 1) := by
  unfold searchOffender
  by_cases reached : index ≤ head.1
  · rw [if_pos reached, List.findIdx_cons, decide_eq_true reached]
    simp
  · rw [if_neg reached, List.findIdx_cons, decide_eq_false reached]
    simp only [cond_false, List.getElem?_cons_succ]
    split_ifs <;> rfl

/-- Where a search does not find an index, it belongs. -/
theorem insert_offender {offending : List (ℕ × Bool)} {index position : ℕ}
    (sorted : (offending.map (·.1)).Pairwise (· < ·))
    (missing : searchOffender offending index = .error position) (disable : Bool) :
    ((offending.insertIdx position (index, disable)).map (·.1)).Pairwise (· < ·) ∧
      ∀ entry, entry ∈ offending.insertIdx position (index, disable) ↔
        entry = (index, disable) ∨ entry ∈ offending := by
  induction offending generalizing position with
  | nil =>
    obtain rfl : 0 = position := Except.error.inj missing
    simp
  | cons head rest ih =>
    rw [List.map_cons, List.pairwise_cons] at sorted
    rw [searchOffender_cons] at missing
    split_ifs at missing with reached same
    · obtain rfl := Except.error.inj missing
      rw [List.insertIdx_zero]
      refine ⟨?_, fun entry => List.mem_cons⟩
      rw [List.map_cons, List.pairwise_cons, List.map_cons, List.pairwise_cons]
      refine ⟨?_, sorted⟩
      have below : index < head.1 := lt_of_le_of_ne reached (Ne.symm same)
      intro other member
      rcases List.mem_cons.mp member with rfl | later
      · exact below
      · exact below.trans (sorted.1 other later)
    · cases found : searchOffender rest index with
      | ok other =>
        rw [found] at missing
        contradiction
      | error other =>
        rw [found] at missing
        obtain rfl := Except.error.inj missing
        obtain ⟨later, members⟩ := ih sorted.2 found
        rw [List.insertIdx_succ_cons]
        refine ⟨?_, fun entry => ?_⟩
        · rw [List.map_cons, List.pairwise_cons]
          refine ⟨?_, later⟩
          intro key member
          obtain ⟨entry, inside, rfl⟩ := List.mem_map.mp member
          rcases (members entry).mp inside with rfl | old
          · exact not_le.mp reached
          · exact sorted.1 entry.1 (List.mem_map_of_mem old)
        · rw [List.mem_cons, members, List.mem_cons]
          tauto

/-- Where a search finds an index, an entry with the same index may take its place. -/
theorem replace_offender {offending : List (ℕ × Bool)} {index position : ℕ}
    (found : searchOffender offending index = .ok position) (disable : Bool) :
    (offending.set position (index, disable)).map (·.1) = offending.map (·.1) := by
  unfold searchOffender at found
  dsimp only at found
  split_ifs at found with here
  obtain rfl := Except.ok.inj found
  generalize offending.findIdx (index ≤ ·.1) = position at *
  rw [← List.getElem?_map] at here
  obtain ⟨inside, same⟩ := List.getElem?_eq_some_iff.mp here
  rw [List.map_set, ← same]
  exact List.set_getElem_self inside

/-- The offenders of an era, and what is disabled in the session. -/
structure OffendersInv (offending : List (ℕ × Bool)) (disabled : Finset ℕ) : Prop where
  sorted : (offending.map (·.1)).Pairwise (· < ·)
  kept : ∀ index, (index, true) ∈ offending → index ∈ disabled

variable {Account : Type} [DecidableEq Account] {config : SlashConfig Account}

/-- The part of the storage that is about offenders. -/
def OffenceState.Offenders (state : OffenceState config) : Prop :=
  OffendersInv state.offendingValidators state.disabled

/-- Forcing an era disables no one. -/
theorem ensureNewEra_disabled (forced : Prop) [Decidable forced] (state : OffenceState config) :
    (if forced then ensureNewEra state else state).disabled = state.disabled := by
  unfold ensureNewEra
  split_ifs
  · split <;> rfl
  · rfl

/-- Adding an offender keeps the order, and whom it disables stays so. -/
theorem addOffendingValidator_offenders {state : OffenceState config} (inv : state.Offenders)
    (stash : Account) (disable : Bool) :
    (addOffendingValidator state stash disable).Offenders := by
  unfold addOffendingValidator
  split
  · exact inv
  · next index present =>
    split
    · next position missing =>
      obtain ⟨sorted, members⟩ := insert_offender inv.sorted missing disable
      dsimp only
      generalize threshold : config.offendingValidatorsThreshold.mul _ = least
      by_cases now : disable = true
      · rw [if_pos now]
        unfold OffenceState.Offenders disableValidator
        rw [ensureNewEra_disabled]
        refine ⟨sorted, fun other member => ?_⟩
        rw [Finset.mem_insert]
        rcases (members (other, true)).mp member with new | old
        · exact .inl (Prod.mk.inj new).1
        · exact .inr (inv.kept other old)
      · rw [if_neg now]
        unfold OffenceState.Offenders
        rw [ensureNewEra_disabled]
        refine ⟨sorted, fun other member => ?_⟩
        rcases (members (other, true)).mp member with new | old
        · exact absurd (Prod.mk.inj new).2.symm now
        · exact inv.kept other old
    · next position found =>
      split_ifs with now
      · refine ⟨?_, fun other member => ?_⟩
        · change ((state.offendingValidators.set position (index, true)).map (·.1)).Pairwise _
          rw [replace_offender found]
          exact inv.sorted
        · change other ∈ insert index state.disabled
          rw [Finset.mem_insert]
          rcases List.mem_or_eq_of_mem_set member with old | new
          · exact .inr (inv.kept other old)
          · exact .inl (Prod.mk.inj new).1
      · exact inv

/-! ## Every step -/

/-- The offenders on record and what is disabled. -/
def OffenceState.offending (state : OffenceState config) : List (ℕ × Bool) × Finset ℕ :=
  (state.offendingValidators, state.disabled)

theorem OffenceState.Offenders.of_same {before after : OffenceState config}
    (inv : before.Offenders) (same : after.offending = before.offending) : after.Offenders := by
  obtain ⟨offending, disabled⟩ := Prod.mk.inj same
  unfold OffenceState.Offenders
  rw [offending, disabled]
  exact inv

theorem chillOffender_offending (state : OffenceState config) (stash : Account) :
    (chillOffender state stash).offending = state.offending := by
  unfold chillOffender chillStash doRemoveNominator doRemoveValidator
  split_ifs <;> rfl

theorem slashNominators_offending (params : SlashParams Account) (prior : Perbill)
    (others : List (IndividualExposure Account)) (state : OffenceState config) :
    (slashNominators params prior others state).1.offending = state.offending := by
  induction others generalizing state with
  | nil => rfl
  | cons nominator rest ih => exact ih (slashNominator state params prior nominator).1

theorem slashValidator_offending (state : OffenceState config) (params : SlashParams Account) :
    (slashValidator state params).1.offending = state.offending := by
  unfold slashValidator
  dsimp only
  split_ifs
  · exact chillOffender_offending ..
  · rfl

theorem applySlash_offending (state : OffenceState config) (unapplied : UnappliedSlash Account)
    (slashEra : ℕ) : (applySlash state unapplied slashEra).offending = state.offending := by
  have single : ∀ (entry : Account × ℕ) (state : OffenceState config) (collected : Collected),
      (doSlash state collected slashEra entry).1.offending = state.offending := by
    intro entry state collected
    unfold doSlash
    dsimp only
    repeat' split
    all_goals rfl
  have applied : ∀ (entries : List (Account × ℕ)) (state : OffenceState config)
      (collected : Collected),
      (doSlashes slashEra entries state collected).1.offending = state.offending := by
    intro entries
    induction entries with
    | nil => intro state collected; rfl
    | cons entry rest ih =>
      intro state collected
      exact (ih _ _).trans (single entry state collected)
  unfold applySlash
  exact applied unapplied.entries state _

theorem applyEras_offending (now era count : ℕ) (state : OffenceState config) :
    (applyEras now era count state).1.offending = state.offending := by
  have applied : ∀ (era : ℕ) (waiting : List (UnappliedSlash Account)) (state : OffenceState config),
      (applyEra now era waiting state).1.offending = state.offending := by
    intro era waiting
    induction waiting with
    | nil => intro state; rfl
    | cons unapplied rest ih =>
      intro state
      exact (ih _).trans (applySlash_offending state unapplied era)
  induction count generalizing era state with
  | zero => rfl
  | succ count ih =>
    simp only [applyEras]
    rw [ih, applied]
    rfl

theorem pushBondedEra_offending (state : OffenceState config) (activeEra session : ℕ) :
    (pushBondedEra state activeEra session).offending = state.offending := by
  have cleared : ∀ (entries : List (ℕ × ℕ)) (state : OffenceState config),
      (entries.foldl (fun state entry => clearEraMetadata state entry.1) state).offending =
        state.offending := by
    intro entries
    induction entries with
    | nil => intro state; rfl
    | cons entry rest ih =>
      intro state
      rw [List.foldl_cons, ih]
      rfl
  unfold pushBondedEra
  dsimp only
  split_ifs
  · exact cleared _ state
  · rfl

/-- Computing a slash adds the offender and no one else. -/
theorem computeSlash_offenders {state : OffenceState config} (inv : state.Offenders)
    (params : SlashParams Account) : (computeSlash state params).1.Offenders := by
  unfold computeSlash
  dsimp only
  split_ifs
  · unfold kickOutIfRecent
    dsimp only
    apply addOffendingValidator_offenders
    split_ifs
    · exact inv.of_same (chillOffender_offending ..)
    · exact inv
  · refine OffenceState.Offenders.of_same ?_ (slashNominators_offending ..)
    apply addOffendingValidator_offenders
    exact inv.of_same (slashValidator_offending ..)
  · exact inv

theorem reportOffender_offenders {state : OffenceState config} (inv : state.Offenders)
    (activeEra slashEra : ℕ) (strategy : DisableStrategy) (details : OffenceDetails Account)
    (fraction : Perbill) :
    (reportOffender state activeEra slashEra strategy details fraction).1.Offenders := by
  have computed := computeSlash_offenders inv
    (slashParams state activeEra slashEra strategy details fraction)
  unfold reportOffender
  by_cases spared : details.offender ∈ state.invulnerables
  · rw [if_pos spared]
    exact inv
  rw [if_neg spared]
  split
  · next after same =>
    rw [same] at computed
    exact computed
  · next after unapplied same =>
    rw [same] at computed
    dsimp only
    split_ifs
    · exact computed.of_same (applySlash_offending ..)
    · exact computed

theorem reportOffenders_offenders (activeEra slashEra : ℕ) (strategy : DisableStrategy)
    (offenders : List (OffenceDetails Account × Perbill)) {state : OffenceState config}
    (inv : state.Offenders) :
    (reportOffenders activeEra slashEra strategy offenders state).1.Offenders := by
  induction offenders generalizing state with
  | nil => exact inv
  | cons offender rest ih =>
    exact ih (reportOffender_offenders inv activeEra slashEra strategy offender.1 offender.2)

/-- Whatever was re-enabled, starting a session disables the offenders again. -/
theorem startSessionSlashing_offenders {state : OffenceState config}
    (sorted : (state.offendingValidators.map (·.1)).Pairwise (· < ·)) (session : ℕ) :
    (startSessionSlashing state session).1.Offenders := by
  have started : (if state.toEraStorage.StartsEra session then startEraSlashing state session
      else (state, [])).1.offending = state.offending := by
    split_ifs
    · unfold startEraSlashing applyUnappliedSlashes
      dsimp only
      split
      · exact pushBondedEra_offending ..
      · exact (applyEras_offending ..).trans (pushBondedEra_offending ..)
    · rfl
  change (disableOffenders (if state.toEraStorage.StartsEra session then
    startEraSlashing state session else (state, [])).1).Offenders
  generalize (if state.toEraStorage.StartsEra session then startEraSlashing state session
    else (state, [])).1 = after at *
  have same : after.offendingValidators = state.offendingValidators := (Prod.mk.inj started).1
  refine ⟨?_, fun index member => ?_⟩
  · change (after.offendingValidators.map (·.1)).Pairwise _
    rw [same]
    exact sorted
  · change index ∈ after.disabled ∪ _
    rw [Finset.mem_union, List.mem_toFinset]
    right
    exact List.mem_map.mpr ⟨(index, true), List.mem_filter.mpr ⟨member, rfl⟩, rfl⟩

theorem genesisSessionSlashing_offenders {state : OffenceState config} (inv : state.Offenders)
    (rotation : Rotation Account) (first second : Option (Supports Account)) :
    (genesisSessionSlashing state rotation first second).1.Offenders := by
  unfold genesisSessionSlashing
  apply startSessionSlashing_offenders
  exact inv.sorted

theorem rotateSessionSlashing_offenders {state : OffenceState config} (inv : state.Offenders)
    (session : ℕ) (rotation : Rotation Account) (election : Option (Supports Account)) :
    (rotateSessionSlashing state session rotation election).1.Offenders := by
  let opened : OffenceState config := { endSessionSlashing state session with
    sessionIndex := some (session + 1)
    sessionValidators := rotation.validators
    disabled := rotation.disabled }
  have sorted : (opened.offendingValidators.map (·.1)).Pairwise (· < ·) := by
    change ((endSessionSlashing state session).offendingValidators.map (·.1)).Pairwise _
    unfold endSessionSlashing
    dsimp only
    split
    · exact List.Pairwise.nil
    · exact inv.sorted
  exact (startSessionSlashing_offenders sorted (session + 1)).of_same rfl

/-- Every step keeps the offenders. -/
theorem offenceStep_offenders {before after : OffenceState config} {call : OffenceCall config}
    {out : List (SlashReceipt Account)} (inv : before.Offenders)
    (taken : offenceStep before call = .ok (after, out)) : after.Offenders := by
  cases call with
  | genesisSession first second rotation =>
    simp only [offenceStep] at taken
    split at taken
    · obtain ⟨rfl, rfl⟩ := Prod.mk.inj (Except.ok.inj taken)
      exact genesisSessionSlashing_offenders inv rotation first second
    · contradiction
  | rotateSession rotation election =>
    simp only [offenceStep] at taken
    split at taken
    · contradiction
    · next session index =>
      obtain ⟨rfl, rfl⟩ := Prod.mk.inj (Except.ok.inj taken)
      exact rotateSessionSlashing_offenders inv session rotation election
  | onOffence offenders fractions slashSession strategy =>
    simp only [offenceStep, Except.ok.injEq] at taken
    unfold onOffence at taken
    split at taken
    · obtain ⟨rfl, rfl⟩ := Prod.mk.inj taken
      exact inv
    · next active present =>
      split at taken
      · obtain ⟨rfl, rfl⟩ := Prod.mk.inj taken
        exact inv
      · next slashEra found =>
        let opened : OffenceState config := { before with
          earliestUnappliedSlash := some (before.earliestUnappliedSlash.getD active.index) }
        have kept : opened.Offenders := inv
        have reported := reportOffenders_offenders active.index slashEra strategy
          (offenders.zip fractions) kept
        rw [taken] at reported
        exact reported
  | cancelDeferredSlash era indices =>
    obtain ⟨-, -, rfl, -⟩ := cancelDeferredSlash_ok taken
    exact inv
  | killStash stash spans =>
    simp only [offenceStep] at taken
    split at taken
    · next killed success =>
      obtain ⟨rfl, rfl⟩ := Prod.mk.inj (Except.ok.inj taken)
      simp only [killStashSlashing, bind_eq_ok, pure_eq_ok] at success
      obtain ⟨chain, -, book, -, rfl⟩ := success
      exact inv
    · contradiction
  | _ =>
    obtain ⟨rfl, rfl⟩ := Prod.mk.inj (Except.ok.inj taken)
    exact inv

/-- In every reachable state the offenders of the era are in strictly ascending order, and whoever of
them was to be disabled is disabled. -/
theorem offenders_disabled {state : OffenceState config} {log : List (SlashReceipt Account)}
    (reached : OffenceReachable state log) :
    (state.offendingValidators.map (·.1)).Pairwise (· < ·) ∧
      ∀ index, (index, true) ∈ state.offendingValidators → index ∈ state.disabled := by
  have inv : state.Offenders := by
    apply Machine.Reachable.invariant
      (fun (state : OffenceState config) (_ : List (SlashReceipt Account)) => state.Offenders) reached
    · intro source initial
      unfold OffenceState.Offenders
      rw [initial.offendingValidators]
      exact ⟨List.Pairwise.nil, fun index member => absurd member List.not_mem_nil⟩
    · intro current next log out call inv _ taken
      exact offenceStep_offenders inv taken
  exact ⟨inv.sorted, inv.kept⟩

theorem deferAndCancel_offenders :
    (offenceOutcome (deferAndCancel.take 3)).1.offendingValidators = [(0, true), (1, true)] ∧
    ∀ index, (index, true) ∈ (offenceOutcome (deferAndCancel.take 3)).1.offendingValidators →
      index ∈ (offenceOutcome (deferAndCancel.take 3)).1.disabled := by
  have reached := offenceOutcome_reachable (deferAndCancel.take 3) (by decide +kernel)
  exact ⟨by decide +kernel, (offenders_disabled reached).2⟩

end GlitchRuntime.Staking

import GlitchRuntime.Lib.Totals
import GlitchRuntime.Staking.Offences

/-! # The slashes of an era

Within an era a validator is slashed by the highest fraction that was reported of it, and a nominator
by what these fractions take of its stakes behind all of them. Reports may come in any order, and
more than once.
-/

namespace GlitchRuntime.Lib.Perbill

theorem ext_parts {first second : Perbill} (same : first.parts = second.parts) : first = second := by
  cases first
  cases second
  cases same
  rfl

@[simp] theorem zero_parts : (0 : Perbill).parts = 0 := rfl

@[simp] theorem zero_mul (n : ℕ) : (0 : Perbill).mul n = 0 := by
  simp [mul, accuracy]

/-- A larger part of an amount is no smaller. -/
theorem mul_mono {first second : Perbill} (order : first.parts ≤ second.parts) (n : ℕ) :
    first.mul n ≤ second.mul n := by
  have scaled := Nat.mul_le_mul_left n order
  unfold mul
  simp only [accuracy]
  split_ifs <;> omega

end GlitchRuntime.Lib.Perbill

namespace GlitchRuntime.Staking

open Lib

variable {Account : Type} [DecidableEq Account] {config : SlashConfig Account}

/-- What a fraction takes of the stakes that an account has among some. -/
def shareOf (fraction : Perbill) (others : List (IndividualExposure Account)) (who : Account) : ℕ :=
  ((others.filter (·.who = who)).map fun nominator => fraction.mul nominator.value).sum

/-- A slash that takes nothing of the whole exposure is none. -/
abbrev SlashParams.Counts (params : SlashParams Account) : Prop :=
  params.slash.mul params.exposure.total ≠ 0

/-- The highest fraction reported of a validator in an era. -/
def highestReport (reports : List (SlashParams Account)) (era : ℕ) (stash : Account) : Perbill :=
  reports.foldl (fun best params =>
    if params.slashEra = era ∧ params.stash = stash ∧ params.Counts ∧
        best.parts < params.slash.parts then params.slash
    else best) 0

/-- Compute slashes one after the other. -/
def computeSlashes (reports : List (SlashParams Account)) (state : OffenceState config) :
    OffenceState config :=
  reports.foldl (fun state params => (computeSlash state params).1) state

/-! ## What a report does to the slashes of its era -/

/-- The slashes of all eras. -/
def OffenceState.eraSlashes (state : OffenceState config) :
    (ℕ → Account → Option (Perbill × ℕ)) × (ℕ → Account → Option ℕ) :=
  (state.validatorSlashInEra, state.nominatorSlashInEra)

theorem chillOffender_eraSlashes (state : OffenceState config) (stash : Account) :
    (chillOffender state stash).eraSlashes = state.eraSlashes := by
  unfold chillOffender chillStash doRemoveNominator doRemoveValidator
  split_ifs <;> rfl

theorem addOffendingValidator_eraSlashes (state : OffenceState config) (stash : Account)
    (disable : Bool) :
    (addOffendingValidator state stash disable).eraSlashes = state.eraSlashes := by
  unfold addOffendingValidator ensureNewEra disableValidator
  dsimp only
  repeat' split
  all_goals rfl

theorem kickOutIfRecent_eraSlashes (state : OffenceState config) (params : SlashParams Account) :
    (kickOutIfRecent state params).eraSlashes = state.eraSlashes := by
  unfold kickOutIfRecent
  rw [addOffendingValidator_eraSlashes]
  split_ifs
  · rw [chillOffender_eraSlashes]
    rfl
  · rfl

theorem slashValidator_eraSlashes (state : OffenceState config) (params : SlashParams Account) :
    (slashValidator state params).1.eraSlashes = state.eraSlashes := by
  unfold slashValidator
  dsimp only
  split_ifs
  · rw [chillOffender_eraSlashes]
    rfl
  · rfl

/-- What a new highest fraction adds to the slash of a nominator. -/
def raisedBy (slash prior : Perbill) (others : List (IndividualExposure Account)) (who : Account) :
    ℕ :=
  ((others.filter (·.who = who)).map fun nominator =>
    slash.mul nominator.value - prior.mul nominator.value).sum

/-- The slash of a nominator grows from what the prior fraction took to what the new one takes. -/
theorem raisedBy_add {slash prior : Perbill} (order : prior.parts ≤ slash.parts)
    (others : List (IndividualExposure Account)) (who : Account) :
    raisedBy slash prior others who + shareOf prior others who = shareOf slash others who := by
  unfold raisedBy shareOf
  generalize others.filter (·.who = who) = own
  induction own with
  | nil => rfl
  | cons nominator rest ih =>
    have grows := Perbill.mul_mono order nominator.value
    simp only [List.map_cons, List.sum_cons]
    omega

theorem slashNominators_eraSlashes (params : SlashParams Account) (prior : Perbill)
    (others : List (IndividualExposure Account)) (state : OffenceState config) :
    (slashNominators params prior others state).1.validatorSlashInEra = state.validatorSlashInEra ∧
      ∀ era who, (slashNominators params prior others state).1.nominatorSlashInEra era who =
        if era = params.slashEra ∧ who ∈ others.map (·.who) then
          some ((state.nominatorSlashInEra era who).getD 0 +
            raisedBy params.slash prior others who)
        else state.nominatorSlashInEra era who := by
  induction others generalizing state with
  | nil =>
    refine ⟨rfl, fun era who => ?_⟩
    rw [if_neg (by simp)]
    rfl
  | cons nominator rest ih =>
    obtain ⟨validators, nominators⟩ := ih (slashNominator state params prior nominator).1
    refine ⟨validators, fun era who => ?_⟩
    have raised : (slashNominator state params prior nominator).1.nominatorSlashInEra era who =
        if era = params.slashEra ∧ who = nominator.who then
          some ((state.nominatorSlashInEra params.slashEra nominator.who).getD 0 +
            (params.slash.mul nominator.value - prior.mul nominator.value))
        else state.nominatorSlashInEra era who := by
      change Function.update state.nominatorSlashInEra params.slashEra
        (Function.update _ nominator.who _) era who = _
      rw [Function.update_apply]
      by_cases here : era = params.slashEra
      · rw [if_pos here, Function.update_apply, here]
        simp only [true_and]
      · rw [if_neg here, if_neg fun both => here both.1]
    change (slashNominators params prior rest
      (slashNominator state params prior nominator).1).1.nominatorSlashInEra era who = _
    rw [nominators, raised]
    by_cases here : era = params.slashEra
    · by_cases same : who = nominator.who
      · have more : raisedBy params.slash prior (nominator :: rest) who =
            params.slash.mul nominator.value - prior.mul nominator.value +
              raisedBy params.slash prior rest who := by
          unfold raisedBy
          rw [List.filter_cons_of_pos (by simp [same])]
          rfl
        rw [if_pos (⟨here, same⟩ : era = params.slashEra ∧ who = nominator.who),
          if_pos (⟨here, by simp [same]⟩ :
            era = params.slashEra ∧ who ∈ (nominator :: rest).map (·.who)), more, here, same]
        split_ifs with again
        · rw [Option.getD_some, Nat.add_assoc]
        · have none : raisedBy params.slash prior rest nominator.who = 0 := by
            unfold raisedBy
            rw [List.filter_eq_nil_iff.mpr]
            · rfl
            · intro other member
              simp only [decide_eq_true_eq]
              intro isWho
              exact again ⟨rfl, List.mem_map.mpr ⟨other, member, isWho⟩⟩
          rw [none, Nat.add_zero]
      · have skipped : raisedBy params.slash prior (nominator :: rest) who =
            raisedBy params.slash prior rest who := by
          unfold raisedBy
          rw [List.filter_cons_of_neg (by simpa using Ne.symm same)]
        have listed : who ∈ (nominator :: rest).map (·.who) ↔ who ∈ rest.map (·.who) := by
          rw [List.map_cons, List.mem_cons]
          exact or_iff_right same
        rw [skipped, if_neg fun both : era = params.slashEra ∧ who = nominator.who => same both.2]
        simp only [listed]
    · simp only [here, false_and, if_false]

/-- A report that is a new highest one of its validator. -/
abbrev Raises (state : OffenceState config) (params : SlashParams Account) : Prop :=
  params.Counts ∧ (priorSlash state params.slashEra params.stash).parts < params.slash.parts

/-- A report that is no new highest one changes nothing in its era. -/
theorem computeSlash_of_not_raises {state : OffenceState config} {params : SlashParams Account}
    (low : ¬ Raises state params) : (computeSlash state params).1.eraSlashes = state.eraSlashes := by
  unfold computeSlash
  dsimp only
  split_ifs with nothing higher
  · exact kickOutIfRecent_eraSlashes state params
  · exact absurd ⟨nothing, higher⟩ low
  · rfl

/-- A report that is a new highest one replaces the prior one, and raises the nominators behind the
validator. -/
theorem computeSlash_of_raises {state : OffenceState config} {params : SlashParams Account}
    (raises : Raises state params) :
    (∀ era stash, (computeSlash state params).1.validatorSlashInEra era stash =
      if era = params.slashEra ∧ stash = params.stash then
        some (params.slash, params.slash.mul params.exposure.own)
      else state.validatorSlashInEra era stash) ∧
    ∀ era who, (computeSlash state params).1.nominatorSlashInEra era who =
      if era = params.slashEra ∧ who ∈ params.exposure.others.map (·.who) then
        some ((state.nominatorSlashInEra era who).getD 0 + raisedBy params.slash
          (priorSlash state params.slashEra params.stash) params.exposure.others who)
      else state.nominatorSlashInEra era who := by
  let noted : OffenceState config := { state with
    validatorSlashInEra := Function.update state.validatorSlashInEra params.slashEra
      (Function.update (state.validatorSlashInEra params.slashEra) params.stash
        (some (params.slash, params.slash.mul params.exposure.own))) }
  have before : (addOffendingValidator (slashValidator noted params).1 params.stash
      (params.disableStrategy ≠ .never)).eraSlashes = noted.eraSlashes :=
    (addOffendingValidator_eraSlashes ..).trans (slashValidator_eraSlashes noted params)
  have after := slashNominators_eraSlashes params
    (priorSlash state params.slashEra params.stash) params.exposure.others
    (addOffendingValidator (slashValidator noted params).1 params.stash
      (params.disableStrategy ≠ .never))
  have computed : (computeSlash state params).1 = (slashNominators params
      (priorSlash state params.slashEra params.stash) params.exposure.others
      (addOffendingValidator (slashValidator noted params).1 params.stash
        (params.disableStrategy ≠ .never))).1 := by
    unfold computeSlash
    dsimp only
    rw [if_neg raises.1, if_pos raises.2]
  rw [computed]
  obtain ⟨validators, nominators⟩ := Prod.mk.inj before
  rw [validators] at after
  rw [nominators] at after
  refine ⟨fun era stash => ?_, after.2⟩
  rw [after.1]
  change Function.update state.validatorSlashInEra params.slashEra
    (Function.update _ params.stash _) era stash = _
  rw [Function.update_apply]
  by_cases here : era = params.slashEra
  · rw [if_pos here, Function.update_apply, here]
    simp only [true_and]
  · rw [if_neg here, if_neg fun both => here both.1]

/-- The prior fraction of a validator after a report is the higher of both. -/
theorem priorSlash_computeSlash (state : OffenceState config) (params : SlashParams Account)
    (era : ℕ) (stash : Account) :
    priorSlash (computeSlash state params).1 era stash =
      if params.slashEra = era ∧ params.stash = stash ∧ params.Counts ∧
          (priorSlash state era stash).parts < params.slash.parts then params.slash
      else priorSlash state era stash := by
  by_cases raises : Raises state params
  · unfold priorSlash
    rw [(computeSlash_of_raises raises).1]
    by_cases here : era = params.slashEra ∧ stash = params.stash
    · obtain ⟨rfl, rfl⟩ := here
      rw [if_pos ⟨rfl, rfl⟩, if_pos ⟨rfl, rfl, raises.1, raises.2⟩]
      rfl
    · rw [if_neg here, if_neg fun all => here ⟨all.1.symm, all.2.1.symm⟩]
  · have same := congrArg Prod.fst (computeSlash_of_not_raises raises)
    change (computeSlash state params).1.validatorSlashInEra = state.validatorSlashInEra at same
    have none : ¬ (params.slashEra = era ∧ params.stash = stash ∧ params.Counts ∧
        (priorSlash state era stash).parts < params.slash.parts) := by
      rintro ⟨rfl, rfl, counts, higher⟩
      exact raises ⟨counts, higher⟩
    rw [if_neg none]
    unfold priorSlash
    rw [same]

/-! ## Any number of reports in any order -/

/-- What an account is slashed for every validator in an era. -/
def sharesIn (exposures : ℕ → Account → Exposure Account) (state : OffenceState config) (era : ℕ)
    (who stash : Account) : ℕ :=
  shareOf (priorSlash state era stash) (exposures era stash).others who

/-- How the slashes of nominators stand to those of the validators they are exposed to. -/
structure EraSums (exposures : ℕ → Account → Exposure Account) (state : OffenceState config) :
    Prop where
  own : ∀ era stash, state.validatorSlashInEra era stash =
    if priorSlash state era stash = 0 then none
    else some (priorSlash state era stash,
      (priorSlash state era stash).mul (exposures era stash).own)
  finite : ∀ era who, FiniteTable (sharesIn exposures state era who)
  sums : ∀ era who, (state.nominatorSlashInEra era who).getD 0 =
    ∑ᶠ stash, sharesIn exposures state era who stash
  present : ∀ era who, state.nominatorSlashInEra era who ≠ none ↔
    ∃ stash, priorSlash state era stash ≠ 0 ∧ who ∈ (exposures era stash).others.map (·.who)

/-- Before any report there is nothing to add up. -/
theorem EraSums.fresh {exposures : ℕ → Account → Exposure Account} {state : OffenceState config}
    (validators : ∀ era stash, state.validatorSlashInEra era stash = none)
    (nominators : ∀ era who, state.nominatorSlashInEra era who = none) : EraSums exposures state := by
  have zero : ∀ era stash, priorSlash state era stash = 0 := by
    intro era stash
    unfold priorSlash
    rw [validators]
    rfl
  have nothing : ∀ era who, sharesIn exposures state era who = fun _ => 0 := by
    intro era who
    funext stash
    unfold sharesIn shareOf
    rw [zero]
    simp
  constructor
  · intro era stash
    rw [if_pos (zero era stash), validators]
  · intro era who
    rw [nothing]
    exact .blank
  · intro era who
    rw [nothing, nominators]
    simp
  · intro era who
    rw [nominators]
    simp [zero]

theorem shareOf_of_notMem {fraction : Perbill} {others : List (IndividualExposure Account)}
    {who : Account} (absent : who ∉ others.map (·.who)) : shareOf fraction others who = 0 := by
  unfold shareOf
  rw [List.filter_eq_nil_iff.mpr]
  · rfl
  · intro nominator member
    simp only [decide_eq_true_eq]
    intro isWho
    exact absent (List.mem_map.mpr ⟨nominator, member, isWho⟩)

/-- One report keeps the sums. -/
theorem EraSums.computeSlash {exposures : ℕ → Account → Exposure Account}
    {state : OffenceState config} {params : SlashParams Account} (sums : EraSums exposures state)
    (exposed : params.exposure = exposures params.slashEra params.stash) :
    EraSums exposures (computeSlash state params).1 := by
  by_cases raises : Raises state params
  · obtain ⟨validators, nominators⟩ := computeSlash_of_raises raises
    have prior : ∀ era stash, priorSlash (Staking.computeSlash state params).1 era stash =
        if era = params.slashEra ∧ stash = params.stash then params.slash
        else priorSlash state era stash := by
      intro era stash
      unfold priorSlash
      rw [validators]
      split_ifs <;> rfl
    have nonzero : params.slash ≠ 0 := by
      intro zero
      have higher := raises.2
      rw [zero] at higher
      exact absurd higher (Nat.not_lt_zero _)
    have others : (exposures params.slashEra params.stash).others = params.exposure.others := by
      rw [exposed]
    have shares : ∀ era who, sharesIn exposures (Staking.computeSlash state params).1 era who =
        if era = params.slashEra then
          Function.update (sharesIn exposures state era who) params.stash
            (shareOf params.slash params.exposure.others who)
        else sharesIn exposures state era who := by
      intro era who
      funext stash
      unfold sharesIn
      rw [prior]
      by_cases here : era = params.slashEra
      · rw [if_pos here, Function.update_apply, here]
        by_cases same : stash = params.stash
        · rw [if_pos ⟨rfl, same⟩, if_pos same, same, others]
        · rw [if_neg fun both => same both.2, if_neg same]
      · rw [if_neg fun both => here both.1, if_neg here]
    constructor
    · intro era stash
      rw [validators, prior]
      by_cases here : era = params.slashEra ∧ stash = params.stash
      · rw [if_pos here, if_pos here, if_neg nonzero, here.1, here.2, exposed]
      · rw [if_neg here, if_neg here, sums.own]
    · intro era who
      rw [shares]
      split_ifs
      · exact (sums.finite era who).write _ _
      · exact sums.finite era who
    · intro era who
      have total := sums.sums era who
      rw [shares, nominators]
      by_cases here : era = params.slashEra
      · subst here
        have written := (sums.finite params.slashEra who).total_write params.stash
          (shareOf params.slash params.exposure.others who)
        have grows := raisedBy_add raises.2.le params.exposure.others who
        have held : sharesIn exposures state params.slashEra who params.stash =
            shareOf (priorSlash state params.slashEra params.stash) params.exposure.others who := by
          unfold sharesIn
          rw [others]
        rw [if_pos rfl]
        by_cases listed : who ∈ params.exposure.others.map (·.who)
        · rw [if_pos ⟨rfl, listed⟩, Option.getD_some]
          omega
        · rw [if_neg fun both => listed both.2]
          have none : shareOf params.slash params.exposure.others who = 0 :=
            shareOf_of_notMem listed
          omega
      · rw [if_neg here, if_neg fun both => here both.1]
        exact total
    · intro era who
      rw [nominators]
      have before := sums.present era who
      by_cases listed : era = params.slashEra ∧ who ∈ params.exposure.others.map (·.who)
      · rw [if_pos listed]
        refine iff_of_true (Option.some_ne_none _) ⟨params.stash, ?_, ?_⟩
        · rw [prior, if_pos ⟨listed.1, rfl⟩]
          exact nonzero
        · rw [listed.1, others]
          exact listed.2
      · rw [if_neg listed, before]
        apply exists_congr
        intro stash
        rw [prior]
        by_cases here : era = params.slashEra ∧ stash = params.stash
        · have absent : who ∉ (exposures era stash).others.map (·.who) := by
            rw [here.1, here.2, others]
            exact fun member => listed ⟨here.1, member⟩
          simp only [absent, and_false]
        · rw [if_neg here]
  · obtain ⟨validators, nominators⟩ := Prod.mk.inj (computeSlash_of_not_raises raises)
    have prior : ∀ era stash, priorSlash (Staking.computeSlash state params).1 era stash =
        priorSlash state era stash := by
      intro era stash
      unfold priorSlash
      rw [validators]
    have shares : ∀ era who, sharesIn exposures (Staking.computeSlash state params).1 era who =
        sharesIn exposures state era who := by
      intro era who
      funext stash
      unfold sharesIn
      rw [prior]
    constructor
    · simp only [prior, validators]
      exact sums.own
    · simp only [shares]
      exact sums.finite
    · simp only [shares, nominators]
      exact sums.sums
    · simp only [prior, nominators]
      exact sums.present

/-- Any reports keep the sums, and the prior fraction of a validator is the highest of them. -/
theorem computeSlashes_sums {exposures : ℕ → Account → Exposure Account}
    {reports : List (SlashParams Account)}
    (exposed : ∀ params ∈ reports, params.exposure = exposures params.slashEra params.stash)
    {state : OffenceState config} (sums : EraSums exposures state) (era : ℕ) (stash : Account) :
    EraSums exposures (computeSlashes reports state) ∧
      priorSlash (computeSlashes reports state) era stash =
        reports.foldl (fun best params =>
          if params.slashEra = era ∧ params.stash = stash ∧ params.Counts ∧
              best.parts < params.slash.parts then params.slash
          else best) (priorSlash state era stash) := by
  induction reports generalizing state with
  | nil => exact ⟨sums, rfl⟩
  | cons params rest ih =>
    have next := sums.computeSlash (exposed params (List.mem_cons_self ..))
    obtain ⟨after, prior⟩ := ih (fun other member => exposed other (List.mem_cons_of_mem _ member))
      next
    refine ⟨after, ?_⟩
    rw [List.foldl_cons, ← priorSlash_computeSlash]
    exact prior

/-- The highest report is the highest number of parts, in whatever order they come. -/
theorem highestReport_parts (reports : List (SlashParams Account)) (era : ℕ) (stash : Account) :
    (highestReport reports era stash).parts =
      ((reports.filter fun params =>
        params.slashEra = era ∧ params.stash = stash ∧ params.Counts).map
          (·.slash.parts)).foldl max 0 := by
  unfold highestReport
  change _ = List.foldl max (0 : Perbill).parts _
  generalize (0 : Perbill) = best
  induction reports generalizing best with
  | nil => rfl
  | cons params rest ih =>
    rw [List.foldl_cons, ih]
    by_cases counts : params.slashEra = era ∧ params.stash = stash ∧ params.Counts
    · rw [List.filter_cons_of_pos (by simpa using counts), List.map_cons, List.foldl_cons]
      congr 1
      by_cases higher : best.parts < params.slash.parts
      · rw [if_pos ⟨counts.1, counts.2.1, counts.2.2, higher⟩, max_eq_right higher.le]
      · rw [if_neg fun all => higher all.2.2.2, max_eq_left (not_lt.mp higher)]
    · rw [List.filter_cons_of_neg (by simpa using counts),
        if_neg fun all => counts ⟨all.1, all.2.1, all.2.2.1⟩]

section Fresh

variable {exposures : ℕ → Account → Exposure Account} {reports other : List (SlashParams Account)}
  {state : OffenceState config}

/-- Reports that start from nothing add up, and raise every prior fraction to the highest. -/
theorem computeSlashes_fresh
    (exposed : ∀ params ∈ reports, params.exposure = exposures params.slashEra params.stash)
    (validators : ∀ era stash, state.validatorSlashInEra era stash = none)
    (nominators : ∀ era who, state.nominatorSlashInEra era who = none) :
    EraSums exposures (computeSlashes reports state) ∧
      priorSlash (computeSlashes reports state) = highestReport reports := by
  have fresh : EraSums exposures state := .fresh validators nominators
  constructor
  · cases reports with
    | nil => exact fresh
    | cons params rest => exact (computeSlashes_sums exposed fresh params.slashEra params.stash).1
  · funext era stash
    rw [(computeSlashes_sums exposed fresh era stash).2]
    have zero : priorSlash state era stash = 0 := by
      unfold priorSlash
      rw [validators]
      rfl
    rw [zero]
    rfl

/-- Reports of the same exposures, in any order and number: a validator is slashed in an era by the
highest fraction that was reported of it, and a nominator by what these fractions take of its stakes
behind every validator. -/
theorem eraSlashes_of_reports
    (exposed : ∀ params ∈ reports, params.exposure = exposures params.slashEra params.stash)
    (validators : ∀ era stash, state.validatorSlashInEra era stash = none)
    (nominators : ∀ era who, state.nominatorSlashInEra era who = none) (era : ℕ) :
    (∀ stash, (computeSlashes reports state).validatorSlashInEra era stash =
      if highestReport reports era stash = 0 then none
      else some (highestReport reports era stash,
        (highestReport reports era stash).mul (exposures era stash).own)) ∧
    (∀ who, (computeSlashes reports state).nominatorSlashInEra era who ≠ none ↔
      ∃ stash, highestReport reports era stash ≠ 0 ∧
        who ∈ (exposures era stash).others.map (·.who)) ∧
    ∀ who, ((computeSlashes reports state).nominatorSlashInEra era who).getD 0 =
      ∑ᶠ stash, shareOf (highestReport reports era stash) (exposures era stash).others who := by
  obtain ⟨sums, prior⟩ := computeSlashes_fresh exposed validators nominators
  refine ⟨fun stash => ?_, fun who => ?_, fun who => ?_⟩
  · rw [sums.own, prior]
  · rw [sums.present, prior]
  · rw [sums.sums]
    unfold sharesIn
    rw [prior]

/-- The highest report does not depend on the order. -/
theorem highestReport_perm (perm : reports.Perm other) :
    highestReport other = highestReport reports := by
  funext era stash
  apply Perbill.ext_parts
  rw [highestReport_parts, highestReport_parts]
  exact ((perm.symm.filter _).map _).foldl_eq 0

/-- The order of reports does not matter to the slashes of their eras. -/
theorem eraSlashes_perm
    (exposed : ∀ params ∈ reports, params.exposure = exposures params.slashEra params.stash)
    (perm : reports.Perm other)
    (validators : ∀ era stash, state.validatorSlashInEra era stash = none)
    (nominators : ∀ era who, state.nominatorSlashInEra era who = none) :
    (computeSlashes other state).eraSlashes = (computeSlashes reports state).eraSlashes := by
  obtain ⟨sums, prior⟩ := computeSlashes_fresh exposed validators nominators
  obtain ⟨otherSums, otherPrior⟩ := computeSlashes_fresh
    (fun params member => exposed params (perm.mem_iff.mpr member)) validators nominators
  have same : priorSlash (computeSlashes other state) = priorSlash (computeSlashes reports state) := by
    rw [prior, otherPrior, highestReport_perm perm]
  apply Prod.ext
  · funext era stash
    change (computeSlashes other state).validatorSlashInEra era stash =
      (computeSlashes reports state).validatorSlashInEra era stash
    rw [sums.own, otherSums.own, same]
  · funext era who
    change (computeSlashes other state).nominatorSlashInEra era who =
      (computeSlashes reports state).nominatorSlashInEra era who
    have amounts : ((computeSlashes other state).nominatorSlashInEra era who).getD 0 =
        ((computeSlashes reports state).nominatorSlashInEra era who).getD 0 := by
      rw [sums.sums, otherSums.sums]
      unfold sharesIn
      rw [same]
    have presence : (computeSlashes other state).nominatorSlashInEra era who ≠ none ↔
        (computeSlashes reports state).nominatorSlashInEra era who ≠ none := by
      rw [sums.present, otherSums.present, same]
    generalize (computeSlashes other state).nominatorSlashInEra era who = left at *
    generalize (computeSlashes reports state).nominatorSlashInEra era who = right at *
    cases left <;> cases right <;> simp_all

end Fresh

/-- One nominator behind every validator. -/
def sharedExposures (_ _ : ℕ) : Exposure ℕ := ⟨70, 60, [⟨20, 10⟩], by decide⟩

/-- A report of a validator in era zero. -/
def reportOf (validator percent : ℕ) : SlashParams ℕ where
  toInspection := inspectionAt 3 0 0 (.fromRational 1 10)
  stash := validator
  slash := .fromRational percent 100
  exposure := sharedExposures 0 validator
  disableStrategy := .whenSlashed

/-- One validator is reported three times, the highest in between, and another once. -/
def fourReports : List (SlashParams ℕ) :=
  [reportOf 10 10, reportOf 11 20, reportOf 10 30, reportOf 10 20]

private theorem fourReports_exposed : ∀ params ∈ fourReports,
    params.exposure = sharedExposures params.slashEra params.stash := by
  simp [fourReports, reportOf, sharedExposures]

theorem fourReports_eraSlashes :
    (computeSlashes fourReports smallOffences).nominatorSlashInEra 0 20 = some 5 ∧
    ((computeSlashes fourReports smallOffences).nominatorSlashInEra 0 20).getD 0 =
      ∑ᶠ stash, shareOf (highestReport fourReports 0 stash) (sharedExposures 0 stash).others 20 :=
  ⟨by decide +kernel, (eraSlashes_of_reports fourReports_exposed (fun _ _ => rfl) (fun _ _ => rfl)
    0).2.2 20⟩

theorem fourReports_reversed : (computeSlashes fourReports.reverse smallOffences).eraSlashes =
    (computeSlashes fourReports smallOffences).eraSlashes :=
  eraSlashes_perm fourReports_exposed fourReports.reverse_perm.symm (fun _ _ => rfl) fun _ _ => rfl

end GlitchRuntime.Staking

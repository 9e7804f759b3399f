import GlitchRuntime.Lib.Cuts

/-! # Slashing spans

The spans of a stash as the pallet stores them: the start of the ongoing span, and the lengths of
the ones before it, most recent first. Whatever spans were ended and pruned on the way, an era of
the window lies in exactly one span, and its index counts the eras before it that ended a span.
-/

namespace GlitchRuntime.Staking

open Lib

/-- A range of eras; the ongoing span has no length yet. -/
structure SlashingSpan where
  index : ℕ
  start : ℕ
  length : Option ℕ
deriving DecidableEq

namespace SlashingSpan

/-- `contains_era`. -/
def ContainsEra (span : SlashingSpan) (era : ℕ) : Prop :=
  span.start ≤ era ∧ ∀ length ∈ span.length, era < span.start + length

instance (span : SlashingSpan) (era : ℕ) : Decidable (span.ContainsEra era) :=
  inferInstanceAs (Decidable (_ ∧ _))

/-- The span is over by the start of the window. -/
def EndedBy (span : SlashingSpan) (windowStart : ℕ) : Prop :=
  ∃ length ∈ span.length, span.start + length ≤ windowStart

instance (span : SlashingSpan) (windowStart : ℕ) : Decidable (span.EndedBy windowStart) :=
  inferInstanceAs (Decidable (∃ length ∈ span.length, _))

end SlashingSpan

/-- An encoding of all of a stash's spans, in which every era is past the start of the chain. -/
structure SlashingSpans where
  spanIndex : ℕ
  lastStart : ℕ
  lastNonzeroSlash : ℕ
  /-- The lengths of the spans before the ongoing one, most recent first. -/
  prior : List ℕ
  lengths_pos : ∀ length ∈ prior, 0 < length
  lengths_le : prior.sum ≤ lastStart
  prior_le : prior.length ≤ spanIndex
deriving DecidableEq

namespace SlashingSpans

/-- A record that starts with the window. -/
def new (windowStart : ℕ) : SlashingSpans where
  spanIndex := 0
  lastStart := windowStart
  lastNonzeroSlash := 0
  prior := []
  lengths_pos := by simp
  lengths_le := by simp
  prior_le := by simp

/-- Start a new span at the era after `now`, and whether one was started. -/
def endSpan (spans : SlashingSpans) (now : ℕ) : SlashingSpans × Bool :=
  if later : now + 1 ≤ spans.lastStart then (spans, false)
  else
    ({ spans with
      spanIndex := spans.spanIndex + 1
      lastStart := now + 1
      prior := (now + 1 - spans.lastStart) :: spans.prior
      lengths_pos := by
        intro length member
        rcases List.mem_cons.mp member with rfl | before
        · omega
        · exact spans.lengths_pos length before
      lengths_le := by have := spans.lengths_le; rw [List.sum_cons]; omega
      prior_le := by have := spans.prior_le; rw [List.length_cons]; omega }, true)

/-- The spans before one, counting its start and index down as the iterator does. -/
def priorSpans : ℕ → ℕ → List ℕ → List SlashingSpan
  | _, _, [] => []
  | lastStart, index, length :: rest =>
    ⟨index - 1, lastStart - length, some length⟩ ::
      priorSpans (lastStart - length) (index - 1) rest

/-- All spans, most recent first. -/
def iter (spans : SlashingSpans) : List SlashingSpan :=
  ⟨spans.spanIndex, spans.lastStart, none⟩ ::
    priorSpans spans.lastStart spans.spanIndex spans.prior

/-- The index of the earliest span there is. -/
def earliest (spans : SlashingSpans) : ℕ := spans.spanIndex - spans.prior.length

/-- Where the prior spans begin that are over by the start of the window. -/
def oldIdx (spans : SlashingSpans) (windowStart : ℕ) : Option ℕ :=
  (spans.iter.drop 1).findIdx? fun span => span.EndedBy windowStart

/-- Keep some prior spans, and start the ongoing one no earlier than the window. -/
def truncate (spans : SlashingSpans) (kept windowStart : ℕ) : SlashingSpans where
  spanIndex := spans.spanIndex
  lastStart := max spans.lastStart windowStart
  lastNonzeroSlash := spans.lastNonzeroSlash
  prior := spans.prior.take kept
  lengths_pos length member := spans.lengths_pos length (List.mem_of_mem_take member)
  lengths_le := by
    refine le_trans ?_ (spans.lengths_le.trans (le_max_left _ _))
    exact (List.take_sublist _ _).sum_le_sum fun _ _ => Nat.zero_le _
  prior_le := (List.length_take_le' _ _).trans spans.prior_le

/-- Drop the spans that are over by the start of the window, with the range of their indices. -/
def prune (spans : SlashingSpans) (windowStart : ℕ) : SlashingSpans × Option (ℕ × ℕ) :=
  match spans.oldIdx windowStart with
  | some old =>
    let pruned := spans.truncate old windowStart
    (pruned, some (spans.earliest, pruned.earliest))
  | none => (spans.truncate spans.prior.length windowStart, none)

/-- The index of the span that covers an era, if one does. -/
def eraSpan (spans : SlashingSpans) (era : ℕ) : Option ℕ :=
  (spans.iter.find? (·.ContainsEra era)).map (·.index)

/-! ## Which span covers an era -/

theorem priorSpans_take (start index : ℕ) (lengths : List ℕ) (kept : ℕ) :
    priorSpans start index (lengths.take kept) = (priorSpans start index lengths).take kept := by
  induction lengths generalizing start index kept with
  | nil => simp [priorSpans]
  | cons length rest ih =>
    cases kept with
    | zero => rfl
    | succ kept => simp only [List.take_succ_cons, priorSpans, ih]

/-- A span before another is over by the start of that one. -/
theorem endedBy_of_mem_priorSpans {start index : ℕ} {lengths : List ℕ} {span : SlashingSpan}
    (fits : lengths.sum ≤ start) (member : span ∈ priorSpans start index lengths) :
    span.EndedBy start := by
  induction lengths generalizing start index with
  | nil => simp [priorSpans] at member
  | cons length rest ih =>
    rw [List.sum_cons] at fits
    rcases List.mem_cons.mp member with rfl | before
    · exact ⟨length, rfl, by dsimp only; omega⟩
    · obtain ⟨own, mine, ended⟩ := ih (by omega) before
      exact ⟨own, mine, by omega⟩

/-- A span before another counts down from its index. -/
theorem index_of_mem_priorSpans {start index : ℕ} {lengths : List ℕ} {span : SlashingSpan}
    (fits : lengths.length ≤ index) (member : span ∈ priorSpans start index lengths) :
    index - lengths.length ≤ span.index ∧ span.index < index := by
  induction lengths generalizing start index with
  | nil => simp [priorSpans] at member
  | cons length rest ih =>
    rw [List.length_cons] at fits ⊢
    rcases List.mem_cons.mp member with rfl | before
    · constructor <;> dsimp only <;> omega
    · have inside := ih (by omega) before
      omega

/-- No era of a window lies in a span that is over by its start. -/
theorem not_containsEra_of_endedBy {span : SlashingSpan} {windowStart era : ℕ}
    (ended : span.EndedBy windowStart) (inWindow : windowStart ≤ era) :
    ¬ span.ContainsEra era := by
  obtain ⟨length, mine, past⟩ := ended
  intro contains
  have := contains.2 length mine
  omega

variable {spans : SlashingSpans} {era : ℕ}

/-- The ongoing span covers every era from its start on. -/
theorem eraSpan_of_le (ongoing : spans.lastStart ≤ era) :
    spans.eraSpan era = some spans.spanIndex := by
  unfold eraSpan iter
  rw [List.find?_cons_of_pos]
  · rfl
  · exact decide_eq_true ⟨ongoing, fun _ none => by cases none⟩

/-- An era before the ongoing span is looked up among the prior ones. -/
theorem eraSpan_of_lt (before : era < spans.lastStart) :
    spans.eraSpan era = ((priorSpans spans.lastStart spans.spanIndex spans.prior).find?
      (·.ContainsEra era)).map (·.index) := by
  unfold eraSpan iter
  rw [List.find?_cons_of_neg]
  intro contains
  have := (of_decide_eq_true contains).1
  dsimp only at this
  omega

/-- The spans found carry indices from the earliest to the ongoing one. -/
theorem eraSpan_bounds {index : ℕ} (found : spans.eraSpan era = some index) :
    spans.earliest ≤ index ∧ index ≤ spans.spanIndex := by
  unfold eraSpan at found
  obtain ⟨span, isFound, rfl⟩ := Option.map_eq_some_iff.mp found
  rcases List.mem_cons.mp (List.mem_of_find?_eq_some isFound) with rfl | before
  · exact ⟨Nat.sub_le _ _, le_rfl⟩
  · have inside := index_of_mem_priorSpans spans.prior_le before
    exact ⟨inside.1, inside.2.le⟩

/-! ## Ending a span -/

theorem endSpan_snd (now : ℕ) : (spans.endSpan now).2 = decide (spans.lastStart ≤ now) := by
  unfold endSpan
  split_ifs with later <;> simp <;> omega

/-- The new span covers the eras after `now`, and no other era moves. -/
theorem eraSpan_endSpan {now : ℕ} (ongoing : spans.lastStart ≤ now) :
    (spans.endSpan now).1.eraSpan era =
      if now < era then some (spans.spanIndex + 1) else spans.eraSpan era := by
  unfold endSpan
  rw [dif_neg (by omega)]
  split_ifs with after
  · exact eraSpan_of_le after
  · rw [eraSpan_of_lt (Nat.lt_succ_of_le (not_lt.mp after))]
    simp only [priorSpans, Nat.add_sub_cancel, Nat.sub_sub_self (Nat.le_succ_of_le ongoing)]
    by_cases current : spans.lastStart ≤ era
    · rw [eraSpan_of_le current, List.find?_cons_of_pos]
      · rfl
      · apply decide_eq_true
        refine ⟨current, fun length mine => ?_⟩
        obtain rfl := Option.some.inj mine
        dsimp only
        omega
    · rw [eraSpan_of_lt (not_le.mp current), List.find?_cons_of_neg]
      intro contains
      exact current (of_decide_eq_true contains).1

/-! ## Pruning against a window -/

/-- Only spans that are over by the start of the window are dropped: an era of the window is found
where it was. -/
theorem find?_priorSpans_take {start index windowStart : ℕ} {lengths : List ℕ}
    (fits : lengths.sum ≤ start) (inWindow : windowStart ≤ era) {kept : ℕ}
    (position : kept = ((priorSpans start index lengths).findIdx?
      fun span => span.EndedBy windowStart).getD lengths.length) :
    ((priorSpans start index lengths).take kept).find? (·.ContainsEra era) =
      (priorSpans start index lengths).find? (·.ContainsEra era) := by
  induction lengths generalizing start index kept with
  | nil => simp [priorSpans]
  | cons length rest ih =>
    rw [List.sum_cons] at fits
    simp only [priorSpans, List.findIdx?_cons] at position ⊢
    by_cases ended : start ≤ windowStart
    · -- everything from here on is over by the start of the window
      have here : SlashingSpan.EndedBy ⟨index - 1, start - length, some length⟩ windowStart :=
        ⟨length, rfl, by dsimp only; omega⟩
      rw [if_pos (decide_eq_true here)] at position
      subst position
      symm
      rw [Option.getD_some, List.take_zero, List.find?_nil, List.find?_eq_none]
      intro span member
      have past : span.EndedBy windowStart := by
        rcases List.mem_cons.mp member with rfl | before
        · exact here
        · obtain ⟨own, mine, ended⟩ := endedBy_of_mem_priorSpans (by omega) before
          exact ⟨own, mine, by omega⟩
      simpa using not_containsEra_of_endedBy past inWindow
    · have open_ : ¬ SlashingSpan.EndedBy ⟨index - 1, start - length, some length⟩ windowStart := by
        rintro ⟨own, mine, past⟩
        obtain rfl := Option.some.inj mine
        dsimp only at past
        omega
      rw [if_neg (by simpa using open_)] at position
      have shifted : kept = ((priorSpans (start - length) (index - 1) rest).findIdx?
          fun span => span.EndedBy windowStart).getD rest.length + 1 := by
        rw [position]
        cases (priorSpans (start - length) (index - 1) rest).findIdx?
          fun span => span.EndedBy windowStart <;> rfl
      rw [shifted, List.take_succ_cons, List.find?_cons, List.find?_cons,
        ih (by omega) rfl]

/-- How many prior spans survive a window. -/
def survivors (spans : SlashingSpans) (windowStart : ℕ) : ℕ :=
  (spans.oldIdx windowStart).getD spans.prior.length

theorem prune_fst (windowStart : ℕ) :
    (spans.prune windowStart).1 = spans.truncate (spans.survivors windowStart) windowStart := by
  unfold prune survivors
  cases spans.oldIdx windowStart <;> rfl

theorem prune_prior (windowStart : ℕ) :
    (spans.prune windowStart).1.prior = spans.prior.take (spans.survivors windowStart) := by
  rw [prune_fst]
  rfl

@[simp] theorem prune_spanIndex (windowStart : ℕ) :
    (spans.prune windowStart).1.spanIndex = spans.spanIndex := by
  rw [prune_fst]
  rfl

@[simp] theorem prune_lastStart (windowStart : ℕ) :
    (spans.prune windowStart).1.lastStart = max spans.lastStart windowStart := by
  rw [prune_fst]
  rfl

/-- Once the ongoing span starts before the window, every prior one is over by its start. -/
theorem prune_prior_of_lt {windowStart : ℕ} (late : spans.lastStart < windowStart) :
    (spans.prune windowStart).1.prior = [] := by
  rw [prune_prior]
  rcases eq_or_ne spans.prior [] with none | some
  · rw [none, List.take_nil]
  · obtain ⟨length, rest, shape⟩ := List.exists_cons_of_ne_nil some
    have gone : survivors spans windowStart = 0 := by
      unfold survivors oldIdx iter
      rw [List.drop_one, List.tail_cons, shape]
      simp only [priorSpans, List.findIdx?_cons]
      rw [if_pos]
      · rfl
      · have fits := spans.lengths_le
        rw [shape, List.sum_cons] at fits
        apply decide_eq_true
        exact ⟨length, rfl, by dsimp only; omega⟩
    rw [gone, List.take_zero]

/-- An era of the window stays in its span. -/
theorem eraSpan_prune {windowStart : ℕ} (inWindow : windowStart ≤ era) :
    (spans.prune windowStart).1.eraSpan era = spans.eraSpan era := by
  by_cases ongoing : spans.lastStart ≤ era
  · rw [eraSpan_of_le ongoing, eraSpan_of_le, prune_spanIndex]
    rw [prune_lastStart]
    exact max_le ongoing inWindow
  · have before := not_le.mp ongoing
    rw [eraSpan_of_lt before, eraSpan_of_lt, prune_spanIndex, prune_prior, prune_lastStart,
      max_eq_left (by omega), priorSpans_take, find?_priorSpans_take spans.lengths_le inWindow]
    · rfl
    · rw [prune_lastStart]
      exact before.trans_le (le_max_left _ _)

/-- An era is never moved to another span, though its span may be dropped. -/
theorem eraSpan_of_eraSpan_prune {windowStart index : ℕ}
    (found : (spans.prune windowStart).1.eraSpan era = some index) :
    spans.eraSpan era = some index := by
  by_cases inWindow : windowStart ≤ era
  · rwa [eraSpan_prune inWindow] at found
  · have shown : era < (spans.prune windowStart).1.lastStart := by
      rw [prune_lastStart]
      exact (not_le.mp inWindow).trans_le (le_max_right _ _)
    rw [eraSpan_of_lt shown] at found
    by_cases late : spans.lastStart < windowStart
    · rw [prune_prior_of_lt late] at found
      simp [priorSpans] at found
    · rw [prune_prior, priorSpans_take, prune_lastStart, prune_spanIndex,
        max_eq_left (not_lt.mp late)] at found
      obtain ⟨span, isFound, rfl⟩ := Option.map_eq_some_iff.mp found
      rw [eraSpan_of_lt (by omega)]
      rw [← List.take_append_drop (spans.survivors windowStart) (priorSpans _ _ _),
        List.find?_append, isFound]
      rfl

variable (spans) in
/-- The indices that pruning reports are those from the earliest before to the earliest after. -/
theorem prune_snd (windowStart : ℕ) :
    (spans.prune windowStart).2 = some (spans.earliest, (spans.prune windowStart).1.earliest) ∨
      (spans.prune windowStart).2 = none ∧
        (spans.prune windowStart).1.earliest = spans.earliest := by
  cases found : spans.oldIdx windowStart with
  | some old =>
    left
    unfold prune
    rw [found]
  | none =>
    right
    unfold prune
    rw [found]
    refine ⟨rfl, ?_⟩
    have whole : (spans.truncate spans.prior.length windowStart).prior = spans.prior :=
      List.take_length
    change spans.spanIndex - (spans.truncate spans.prior.length windowStart).prior.length = _
    rw [whole, earliest]

variable (spans) in
theorem earliest_le_prune (windowStart : ℕ) :
    spans.earliest ≤ (spans.prune windowStart).1.earliest := by
  unfold earliest
  rw [prune_prior, prune_spanIndex, List.length_take]
  omega

/-! ## One span for every era -/

/-- Later spans start where earlier ones have ended, so no era lies in two. -/
theorem iter_disjoint (spans : SlashingSpans) (era : ℕ) :
    spans.iter.Pairwise fun newer older => newer.ContainsEra era → ¬ older.ContainsEra era := by
  have before : ∀ (start index : ℕ) (lengths : List ℕ), lengths.sum ≤ start →
      (priorSpans start index lengths).Pairwise
        fun newer older => newer.ContainsEra era → ¬ older.ContainsEra era := by
    intro start index lengths fits
    induction lengths generalizing start index with
    | nil => exact List.Pairwise.nil
    | cons length rest ih =>
      rw [List.sum_cons] at fits
      refine List.Pairwise.cons ?_ (ih _ _ (by omega))
      intro older member contains
      exact not_containsEra_of_endedBy (endedBy_of_mem_priorSpans (by omega) member) contains.1
  refine List.Pairwise.cons ?_ (before _ _ _ spans.lengths_le)
  intro older member contains
  exact not_containsEra_of_endedBy (endedBy_of_mem_priorSpans spans.lengths_le member) contains.1

/-- The spans that contain an era are the one that is looked up, or none. -/
theorem containing_eq (spans : SlashingSpans) (era : ℕ) :
    (spans.iter.filter (·.ContainsEra era)).map (·.index) = (spans.eraSpan era).toList := by
  unfold eraSpan
  have disjoint := spans.iter_disjoint era
  generalize spans.iter = all at disjoint ⊢
  induction all with
  | nil => rfl
  | cons span rest ih =>
    rw [List.pairwise_cons] at disjoint
    by_cases contains : span.ContainsEra era
    · rw [List.filter_cons_of_pos (by simpa using contains), List.find?_cons_of_pos
        (by simpa using contains), List.filter_eq_nil_iff.mpr]
      · rfl
      · intro older member
        simpa using disjoint.1 older member contains
    · rw [List.filter_cons_of_neg (by simpa using contains), List.find?_cons_of_neg
        (by simpa using contains), ih disjoint.2]

end SlashingSpans

end GlitchRuntime.Staking

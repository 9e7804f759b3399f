import Mathlib

/-! # Removing entries at ascending positions

A list loses the entries at some positions one by one, from the first position on; each position
is moved down by how many entries went before it. What is left are the entries at all other
positions, in order.
-/

namespace GlitchRuntime.Lib

variable {α : Type*}

/-- Remove the entries at the positions, of which `removed` others went before. -/
def removeShifted : ℕ → List ℕ → List α → List α
  | _, [], entries => entries
  | removed, position :: rest, entries =>
    removeShifted (removed + 1) rest (entries.eraseIdx (position - removed))

/-- The entries at all other positions, where the first entry is at `first`. -/
def keepOthers (first : ℕ) (positions : List ℕ) (entries : List α) : List α :=
  ((entries.zipIdx first).filter (·.2 ∉ positions)).map (·.1)

theorem keepOthers_append (first : ℕ) (positions : List ℕ) (front back : List α) :
    keepOthers first positions (front ++ back) =
      keepOthers first positions front ++ keepOthers (first + front.length) positions back := by
  simp [keepOthers, List.zipIdx_append]

/-- Positions that lie elsewhere remove nothing. -/
theorem keepOthers_eq_self {first : ℕ} {positions : List ℕ} {entries : List α}
    (elsewhere : ∀ position ∈ positions, position < first ∨ first + entries.length ≤ position) :
    keepOthers first positions entries = entries := by
  unfold keepOthers
  rw [List.filter_eq_self.mpr, List.zipIdx_map_fst]
  intro entry member
  obtain ⟨inside, bound, -⟩ := List.mem_zipIdx member
  simp only [decide_eq_true_eq]
  intro present
  have := elsewhere entry.2 present
  omega

/-- Positions before the first entry do not matter. -/
theorem keepOthers_cons_of_lt {first position : ℕ} (positions : List ℕ) (entries : List α)
    (before : position < first) :
    keepOthers first (position :: positions) entries = keepOthers first positions entries := by
  unfold keepOthers
  congr 1
  apply List.filter_congr
  intro entry member
  have bound := (List.mem_zipIdx member).1
  have other : entry.2 ≠ position := by omega
  simp [other]

/-- The entry at a position, with those around it. -/
theorem splitAt {first position : ℕ} {entries : List α}
    (inside : first ≤ position ∧ position < first + entries.length) :
    ∃ before entry after, entries = before ++ entry :: after ∧
      before.length = position - first := by
  have bound : position - first < entries.length := by omega
  refine ⟨entries.take (position - first), entries[position - first],
    entries.drop (position - first + 1), ?_, ?_⟩
  · rw [← List.drop_eq_getElem_cons bound, List.take_append_drop]
  · rw [List.length_take]
    omega

/-- The later positions lie among the later entries. -/
theorem later_inside {first position : ℕ} {rest : List ℕ} {before after : List α} {entry : α}
    (later : ∀ other ∈ rest, position < other) (length : before.length = position - first)
    (inside : ∀ other ∈ position :: rest,
      first ≤ other ∧ other < first + (before ++ entry :: after).length) :
    ∀ other ∈ rest, position + 1 ≤ other ∧ other < position + 1 + after.length := by
  intro other member
  have here := (inside position (List.mem_cons_self ..)).1
  have above := later other member
  have within := (inside other (List.mem_cons_of_mem _ member)).2
  simp only [List.length_append, List.length_cons] at within
  omega

/-- The entry at the first position goes, and those before it stay. -/
theorem keepOthers_cons {first position : ℕ} {rest : List ℕ} {before after : List α} {entry : α}
    (later : ∀ other ∈ rest, position < other) (length : before.length = position - first)
    (inside : first ≤ position) :
    keepOthers first (position :: rest) (before ++ entry :: after) =
      before ++ keepOthers (position + 1) rest after := by
  rw [keepOthers_append, keepOthers_eq_self, length,
    show first + (position - first) = position by omega,
    ← keepOthers_cons_of_lt rest after (Nat.lt_succ_self position)]
  · simp [keepOthers, List.zipIdx_cons]
  · intro other member
    rw [length]
    rcases List.mem_cons.mp member with rfl | behind
    · omega
    · have above := later other behind
      omega

/-- After `front`, of which `removed` entries are gone, the loop removes the named entries. -/
theorem removeShifted_append {removed first : ℕ} {positions : List ℕ} {front back : List α}
    (ascending : positions.Pairwise (· < ·)) (shift : front.length + removed = first)
    (inside : ∀ position ∈ positions, first ≤ position ∧ position < first + back.length) :
    removeShifted removed positions (front ++ back) = front ++ keepOthers first positions back := by
  induction positions generalizing removed first front back with
  | nil =>
    rw [keepOthers_eq_self (by simp)]
    rfl
  | cons position rest ih =>
    rw [List.pairwise_cons] at ascending
    have here := inside position (List.mem_cons_self ..)
    obtain ⟨before, entry, after, rfl, length⟩ := splitAt here
    have erased : (front ++ (before ++ entry :: after)).eraseIdx (position - removed) =
        (front ++ before) ++ after := by
      rw [← List.append_assoc, List.eraseIdx_append_of_length_le (by rw [List.length_append]; omega),
        List.length_append, show position - removed - (front.length + before.length) = 0 by omega]
      rfl
    have later : removeShifted (removed + 1) rest ((front ++ before) ++ after) =
        (front ++ before) ++ keepOthers (position + 1) rest after :=
      ih ascending.2 (by rw [List.length_append]; omega) (later_inside ascending.1 length inside)
    rw [removeShifted, erased, later, keepOthers_cons ascending.1 length here.1,
      List.append_assoc]

/-- The loop leaves exactly the entries whose positions are not named. -/
theorem removeShifted_eq {positions : List ℕ} {entries : List α}
    (ascending : positions.Pairwise (· < ·))
    (inside : ∀ position ∈ positions, position < entries.length) :
    removeShifted 0 positions entries = keepOthers 0 positions entries := by
  have whole : removeShifted 0 positions ([] ++ entries) = [] ++ keepOthers 0 positions entries :=
    removeShifted_append ascending rfl fun position member =>
      ⟨Nat.zero_le _, by simpa using inside position member⟩
  simpa using whole

/-- The entries at the positions, where the first entry is at `first`. -/
def entriesAt (first : ℕ) (positions : List ℕ) (entries : List α) : List α :=
  positions.filterMap fun position => entries[position - first]?

/-- What is kept and what is removed are all the entries. -/
theorem keepOthers_perm {first : ℕ} {positions : List ℕ} {entries : List α}
    (ascending : positions.Pairwise (· < ·))
    (inside : ∀ position ∈ positions, first ≤ position ∧ position < first + entries.length) :
    (keepOthers first positions entries ++ entriesAt first positions entries).Perm entries := by
  induction positions generalizing first entries with
  | nil =>
    rw [keepOthers_eq_self (by simp)]
    simp [entriesAt]
  | cons position rest ih =>
    rw [List.pairwise_cons] at ascending
    have here := inside position (List.mem_cons_self ..)
    obtain ⟨before, entry, after, rfl, length⟩ := splitAt here
    have later := ih ascending.2 (later_inside ascending.1 length inside)
    have picked : entriesAt first (position :: rest) (before ++ entry :: after) =
        entry :: entriesAt (position + 1) rest after := by
      unfold entriesAt
      rw [List.filterMap_cons_some (b := entry)]
      · congr 1
        apply List.filterMap_congr
        intro other member
        have above := ascending.1 other member
        rw [List.getElem?_append_right (by omega), length,
          show other - first - (position - first) = other - (position + 1) + 1 by omega,
          List.getElem?_cons_succ]
      · rw [List.getElem?_append_right (by omega), length, Nat.sub_self]
        rfl
    rw [keepOthers_cons ascending.1 length here.1, picked, List.append_assoc]
    apply List.Perm.append_left before
    exact List.perm_middle.trans (later.cons entry)

/-- The same from position zero on. -/
theorem keepOthers_zero_perm {positions : List ℕ} {entries : List α}
    (ascending : positions.Pairwise (· < ·))
    (inside : ∀ position ∈ positions, position < entries.length) :
    (keepOthers 0 positions entries ++ entriesAt 0 positions entries).Perm entries := by
  apply keepOthers_perm ascending
  intro position member
  exact ⟨Nat.zero_le _, by simpa using inside position member⟩

end GlitchRuntime.Lib

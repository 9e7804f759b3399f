import Mathlib

/-! # Intervals between cuts

A finite set of cuts divides a line into intervals: a cut ends the interval it lies in. Intervals
are numbered by how many cuts lie before them, so a later cut renumbers nothing before it.
-/

namespace GlitchRuntime.Lib

variable {α : Type*} [LinearOrder α]

/-- The number of the interval that a point lies in. -/
def cutRank (cuts : Finset α) (point : α) : ℕ := (cuts.filter (· < point)).card

/-- A cut renumbers nothing at or before it. -/
theorem cutRank_insert_of_le {cuts : Finset α} {cut point : α} (before : point ≤ cut) :
    cutRank (insert cut cuts) point = cutRank cuts point := by
  unfold cutRank
  rw [Finset.filter_insert, if_neg (not_lt.mpr before)]

/-- A new cut at the end begins an interval with the next number. -/
theorem cutRank_insert_of_lt {cuts : Finset α} {cut point : α} (fresh : cut ∉ cuts)
    (after : cut < point) : cutRank (insert cut cuts) point = cutRank cuts point + 1 := by
  unfold cutRank
  rw [Finset.filter_insert, if_pos after, Finset.card_insert_of_notMem]
  intro member
  exact fresh (Finset.mem_filter.mp member).1

/-- Two points share an interval exactly when no cut separates them. -/
theorem cutRank_eq_iff {cuts : Finset α} {point later : α} (order : point ≤ later) :
    cutRank cuts point = cutRank cuts later ↔ ∀ cut ∈ cuts, point ≤ cut → later ≤ cut := by
  have nested : cuts.filter (· < point) ⊆ cuts.filter (· < later) := by
    intro cut member
    rw [Finset.mem_filter] at member ⊢
    exact ⟨member.1, member.2.trans_le order⟩
  constructor
  · intro same cut member after
    by_contra separates
    have equal := Finset.eq_of_subset_of_card_le nested same.ge
    have inside : cut ∈ cuts.filter (· < point) := by
      rw [equal, Finset.mem_filter]
      exact ⟨member, not_le.mp separates⟩
    exact absurd (Finset.mem_filter.mp inside).2 (not_lt.mpr after)
  · intro together
    unfold cutRank
    congr 1
    refine Finset.Subset.antisymm nested ?_
    intro cut member
    rw [Finset.mem_filter] at member ⊢
    refine ⟨member.1, ?_⟩
    by_contra beyond
    exact absurd member.2 (not_lt.mpr (together cut member.1 (not_lt.mp beyond)))

end GlitchRuntime.Lib

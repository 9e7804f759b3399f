import Mathlib

/-! # Totals of a table

A table with finitely many entries has a total, and writing one entry moves the total by what the
entry moved.
-/

namespace GlitchRuntime.Lib

open Function

variable {κ : Type*} [DecidableEq κ]

/-- Writing an entry that is summed moves the sum by as much as the entry. -/
theorem sum_write {keys : Finset κ} {key : κ} (summed : key ∈ keys) (table : κ → ℕ) (value : ℕ) :
    (∑ other ∈ keys, update table key value other) + table key =
      (∑ other ∈ keys, table other) + value := by
  rw [Finset.sum_update_of_mem summed,
    Finset.sum_eq_add_sum_sdiff_singleton_of_mem summed table]
  omega

theorem sum_write_apart {keys : Finset κ} {key : κ} (apart : key ∉ keys) (table : κ → ℕ)
    (value : ℕ) : ∑ other ∈ keys, update table key value other = ∑ other ∈ keys, table other :=
  Finset.sum_update_of_notMem apart table value

/-- Finitely many entries of a table of numbers are not zero. -/
abbrev FiniteTable (table : κ → ℕ) : Prop := (support table).Finite

namespace FiniteTable

variable {table : κ → ℕ}

omit [DecidableEq κ] in
theorem blank : FiniteTable (fun _ : κ => 0) := by
  rw [FiniteTable, support_fun_zero]
  exact Set.finite_empty

theorem write (finite : FiniteTable table) (key : κ) (value : ℕ) :
    FiniteTable (update table key value) := by
  apply (finite.insert key).subset
  intro other present
  by_cases same : other = key
  · exact .inl same
  · rw [mem_support, update_of_ne same] at present
    exact .inr present

omit [DecidableEq κ] in
/-- No entry is above the total. -/
theorem entry_le_total (finite : FiniteTable table) (key : κ) :
    table key ≤ ∑ᶠ other, table other :=
  single_le_finsum key finite fun _ => Nat.zero_le _

/-- Writing an entry moves the total by as much as the entry. -/
theorem total_write (finite : FiniteTable table) (key : κ) (value : ℕ) :
    (∑ᶠ other, update table key value other) + table key = (∑ᶠ other, table other) + value := by
  have covered : support table ⊆ ↑(insert key finite.toFinset) := by
    intro other present
    simp [mem_support.mp present]
  have coveredAfter : support (update table key value) ⊆ ↑(insert key finite.toFinset) := by
    intro other present
    by_cases same : other = key
    · simp [same]
    · rw [mem_support, update_of_ne same] at present
      simp [present]
  rw [finsum_eq_sum_of_support_subset _ covered, finsum_eq_sum_of_support_subset _ coveredAfter]
  exact sum_write (Finset.mem_insert_self ..) table value

end FiniteTable

/-- Writing a record writes each of its numbers. -/
theorem field_write {ν : Type*} (field : ν → ℕ) (table : κ → ν) (key : κ) (value : ν) :
    (fun other => field (update table key value other)) =
      update (fun other => field (table other)) key (field value) :=
  comp_update field table key value

end GlitchRuntime.Lib

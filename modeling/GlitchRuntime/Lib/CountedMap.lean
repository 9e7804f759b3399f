import Mathlib

/-! # Maps that count their keys

A counted map keeps a number beside its entries: one more for a new key, one less for a key that
goes. The number is then that of the keys.
-/

namespace GlitchRuntime.Lib

variable {κ ν : Type*}

/-- A map has exactly these keys, and the counter is right about them. -/
structure Counted (map : κ → Option ν) (count : ℕ) (keys : Finset κ) : Prop where
  mem : ∀ key, (map key).isSome ↔ key ∈ keys
  card : count = keys.card

namespace Counted

variable {map : κ → Option ν} {count : ℕ} {keys : Finset κ}

theorem empty : Counted (fun _ : κ => (none : Option ν)) 0 ∅ := ⟨by simp, rfl⟩

/-- The same keys with other values. -/
theorem congr (counted : Counted map count keys) {other : κ → Option ν}
    (same : ∀ key, (other key).isSome = (map key).isSome) : Counted other count keys :=
  ⟨fun key => by rw [same]; exact counted.mem key, counted.card⟩

variable [DecidableEq κ]

theorem overwrite (counted : Counted map count keys) {key : κ} (present : (map key).isSome)
    (value : ν) : Counted (Function.update map key (some value)) count keys := by
  refine counted.congr fun other => ?_
  rw [Function.update_apply]
  split_ifs with same
  · rw [same, present, Option.isSome_some]
  · rfl

theorem insert_new (counted : Counted map count keys) {key : κ} (absent : ¬ (map key).isSome)
    (value : ν) :
    Counted (Function.update map key (some value)) (count + 1) (insert key keys) := by
  constructor
  · intro other
    rw [Function.update_apply, Finset.mem_insert]
    split_ifs with same
    · simp [same]
    · rw [counted.mem other]
      exact (or_iff_right same).symm
  · have outside : key ∉ keys := fun member => absent ((counted.mem key).mpr member)
    rw [counted.card, Finset.card_insert_of_notMem outside]

theorem remove (counted : Counted map count keys) {key : κ} (present : (map key).isSome) :
    Counted (Function.update map key none) (count - 1) (keys.erase key) := by
  constructor
  · intro other
    rw [Function.update_apply, Finset.mem_erase]
    split_ifs with same
    · simp [same]
    · rw [counted.mem other]
      exact (and_iff_right same).symm
  · rw [counted.card, Finset.card_erase_of_mem ((counted.mem key).mp present)]

end Counted

end GlitchRuntime.Lib

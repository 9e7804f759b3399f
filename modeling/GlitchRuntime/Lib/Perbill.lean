import Mathlib

/-! # Parts per billion

A part of a whole in units of `1 / 10 ^ 9`, never above one. A part is made from a ratio by
rounding down, and taken of an amount by rounding to the nearest integer, ties down. One such
product is off by less than half a unit, so splitting an amount by the shares of a common total
can hand out more than the amount, but by less than half a unit for every share.
-/

namespace GlitchRuntime.Lib

/-- Parts per billion; one is a billion parts. -/
structure Perbill where
  parts : ℕ
  le_one : parts ≤ 1000000000
deriving DecidableEq

namespace Perbill

/-- A billion, the accuracy of the type. -/
abbrev accuracy : ℕ := 1000000000

/-- `p / q` rounded down and capped at one; a zero denominator reads as one. -/
def fromRational (p q : ℕ) : Perbill where
  parts := min p (max q 1) * accuracy / max q 1
  le_one := by
    apply Nat.div_le_of_le_mul
    exact Nat.mul_le_mul_right _ (min_le_right _ _)

/-- `part * n`, rounded to nearest with ties down. -/
def mul (part : Perbill) (n : ℕ) : ℕ :=
  n * part.parts / accuracy + if accuracy < 2 * (n * part.parts % accuracy) then 1 else 0

instance : Zero Perbill := ⟨⟨0, Nat.zero_le _⟩⟩

instance : Inhabited Perbill := ⟨0⟩

/-- The product exceeds the exact value by less than half a unit. -/
theorem two_mul_lt (part : Perbill) (n : ℕ) :
    2 * accuracy * part.mul n < 2 * (n * part.parts) + accuracy := by
  unfold mul
  generalize n * part.parts = exact
  have split := Nat.div_add_mod exact accuracy
  simp only [accuracy] at split ⊢
  split_ifs <;> omega

/-- A part of an amount is at most the amount. -/
theorem mul_le (part : Perbill) (n : ℕ) : part.mul n ≤ n := by
  have close := part.two_mul_lt n
  have whole : n * part.parts ≤ n * accuracy := Nat.mul_le_mul_left _ part.le_one
  simp only [accuracy] at close whole
  omega

/-- The parts a ratio is worth, against its denominator. -/
theorem fromRational_parts_mul_le (p q : ℕ) :
    (fromRational p q).parts * max q 1 ≤ p * accuracy := by
  calc (fromRational p q).parts * max q 1
      ≤ min p (max q 1) * accuracy := Nat.div_mul_le_self _ _
    _ ≤ p * accuracy := Nat.mul_le_mul_right _ (min_le_left _ _)

/-- The shares of a common total never add up to more than one. -/
theorem sum_parts_le {weights : List ℕ} {total : ℕ} (covered : weights.sum ≤ total) :
    (weights.map fun weight => (fromRational weight total).parts).sum ≤ accuracy := by
  have scaled : (weights.map fun weight => (fromRational weight total).parts).sum * max total 1 ≤
      weights.sum * accuracy := by
    clear covered
    induction weights with
    | nil => simp
    | cons weight rest ih =>
      have head := fromRational_parts_mul_le weight total
      simp only [List.map_cons, List.sum_cons, Nat.add_mul]
      omega
  have positive : 0 < max total 1 := by omega
  refine Nat.le_of_mul_le_mul_right (scaled.trans ?_) positive
  rw [Nat.mul_comm]
  exact Nat.mul_le_mul_left _ (covered.trans (le_max_left _ _))

private theorem two_mul_sum_lt_parts (shares : List Perbill) (n : ℕ) (nonempty : shares ≠ []) :
    2 * accuracy * (shares.map fun share => share.mul n).sum <
      2 * (n * (shares.map Perbill.parts).sum) + accuracy * shares.length := by
  induction shares with
  | nil => contradiction
  | cons share rest ih =>
    have head := share.two_mul_lt n
    simp only [List.map_cons, List.sum_cons, List.length_cons, Nat.mul_add, Nat.mul_one]
    rcases eq_or_ne rest [] with rfl | more
    · simpa using head
    · have tail := ih more
      omega

/-- Splitting `n` by shares of a common total overshoots by less than half a unit a share. -/
theorem two_mul_sum_lt {weights : List ℕ} {total : ℕ} (n : ℕ) (nonempty : weights ≠ [])
    (covered : weights.sum ≤ total) :
    2 * (weights.map fun weight => (fromRational weight total).mul n).sum <
      2 * n + weights.length := by
  have shares := two_mul_sum_lt_parts (weights.map fun weight => fromRational weight total) n
    (by simpa using nonempty)
  simp only [List.map_map, Function.comp_def, List.length_map] at shares
  have whole := Nat.mul_le_mul_left n (sum_parts_le covered)
  simp only [accuracy] at shares whole
  omega

/-- Three quarters round up: four equal shares of three take four. -/
example : ([1, 1, 1, 1].map fun weight => (fromRational weight 4).mul 3).sum = 4 := by decide

end Perbill

end GlitchRuntime.Lib

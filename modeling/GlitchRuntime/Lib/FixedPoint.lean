import GlitchRuntime.Lib.Fallible

/-! # Fixed-point numbers with eighteen decimals

Checked arithmetic on numbers of 128 bits, and quotients kept with eighteen decimals. Taking a part
of a value through such a quotient rounds down twice, and both losses are bounded here.
-/

namespace GlitchRuntime.Lib

/-- The number, if it has at most 128 bits. -/
def checked128 (value : ℕ) : Option ℕ :=
  if value < 2 ^ 128 then some value else none

def checkedAdd (left right : ℕ) : Option ℕ := checked128 (left + right)

def checkedSub (left right : ℕ) : Option ℕ :=
  if right ≤ left then some (left - right) else none

@[simp] theorem checked128_eq_some {value result : ℕ} :
    checked128 value = some result ↔ value < 2 ^ 128 ∧ value = result := by
  simp [checked128]

@[simp] theorem checkedAdd_eq_some {left right result : ℕ} :
    checkedAdd left right = some result ↔ left + right < 2 ^ 128 ∧ left + right = result :=
  checked128_eq_some

@[simp] theorem checkedSub_eq_some {left right result : ℕ} :
    checkedSub left right = some result ↔ right ≤ left ∧ left - right = result := by
  simp [checkedSub]

/-- A number of 128 bits that counts units of `10 ^ -18`. -/
structure FixedU128 where
  inner : ℕ
  fits : inner < 2 ^ 128

namespace FixedU128

/-- The units in one. -/
def accuracy : ℕ := 10 ^ 18

theorem accuracy_pos : 0 < accuracy := by
  norm_num [accuracy]

def zero : FixedU128 := ⟨0, by norm_num⟩

/-- The quotient rounded down, unless it is too large or there is none. -/
def checkedFromRational (numerator denominator : ℕ) : Option FixedU128 :=
  if denominator = 0 then none
  else if fits : numerator * accuracy / denominator < 2 ^ 128 then some ⟨_, fits⟩
  else none

/-- The product with an integer rounded down, unless it is too large. -/
def checkedMulInt (factor : FixedU128) (value : ℕ) : Option ℕ :=
  checked128 (factor.inner * value / accuracy)

theorem checkedFromRational_eq_some {numerator denominator : ℕ} {quotient : FixedU128} :
    checkedFromRational numerator denominator = some quotient ↔
      0 < denominator ∧ numerator * accuracy / denominator = quotient.inner := by
  obtain ⟨inner, fits⟩ := quotient
  unfold checkedFromRational
  split_ifs with zero small
  · simp [zero]
  · simp only [Option.some.injEq, mk.injEq]
    constructor
    · rintro rfl
      exact ⟨by omega, rfl⟩
    · exact fun ⟨_, same⟩ => same
  · constructor
    · exact fun none => by cases none
    · rintro ⟨_, rfl⟩
      contradiction

@[simp] theorem checkedMulInt_eq_some {factor : FixedU128} {value result : ℕ} :
    factor.checkedMulInt value = some result ↔
      factor.inner * value / accuracy < 2 ^ 128 ∧ factor.inner * value / accuracy = result :=
  checked128_eq_some

end FixedU128

open FixedU128

/-! ## Parts of a value -/

/-- The part `amount / whole` of a value, through a quotient with eighteen decimals. -/
def proRata (amount whole value : ℕ) : ℕ :=
  amount * accuracy / whole * value / accuracy

variable {amount whole value : ℕ}

@[simp] theorem proRata_zero_whole : proRata amount 0 value = 0 := by
  simp [proRata]

@[simp] theorem proRata_zero_amount : proRata 0 whole value = 0 := by
  simp [proRata]

/-- The decimals of a part of a whole are at most those of one. -/
theorem quotient_le_accuracy (part : amount ≤ whole) : amount * accuracy / whole ≤ accuracy := by
  apply Nat.div_le_of_le_mul
  exact Nat.mul_le_mul_right _ part

/-- A part is at most the value. -/
theorem proRata_le (part : amount ≤ whole) : proRata amount whole value ≤ value := by
  apply Nat.div_le_of_le_mul
  exact Nat.mul_le_mul_right _ (quotient_le_accuracy part)

/-- The whole of a value is the value. -/
theorem proRata_self (positive : 0 < whole) : proRata whole whole value = value := by
  rw [proRata, Nat.mul_div_cancel_left _ positive, Nat.mul_div_cancel_left _ accuracy_pos]

/-- Taking a part of a value of 128 bits never overflows. -/
theorem checkedFromRational_checkedMulInt (positive : 0 < whole) (part : amount ≤ whole)
    (fits : value < 2 ^ 128) :
    ((checkedFromRational amount whole).bind fun quotient => quotient.checkedMulInt value) =
      some (proRata amount whole value) := by
  have small : amount * accuracy / whole < 2 ^ 128 := by
    apply (quotient_le_accuracy part).trans_lt
    norm_num [accuracy]
  have quotient : checkedFromRational amount whole = some ⟨_, small⟩ :=
    checkedFromRational_eq_some.mpr ⟨positive, rfl⟩
  rw [quotient, Option.bind_some, checkedMulInt_eq_some]
  exact ⟨(proRata_le part).trans_lt fits, rfl⟩

/-- What comes out of a quotient and a product is the part. -/
theorem proRata_of_eq_some {result : ℕ}
    (computed : ((checkedFromRational amount whole).bind fun quotient =>
      quotient.checkedMulInt value) = some result) : proRata amount whole value = result := by
  obtain ⟨quotient, first, second⟩ := Option.bind_eq_some_iff.mp computed
  rw [proRata, (checkedFromRational_eq_some.mp first).2]
  exact (checkedMulInt_eq_some.mp second).2

/-! ## Bounds on what rounding takes -/

theorem proRata_le_exact : (proRata amount whole value : ℚ) ≤ amount * value / whole := by
  have outer : (proRata amount whole value : ℚ) ≤
      ((amount * accuracy / whole * value : ℕ) : ℚ) / accuracy := Nat.cast_div_le
  have inner : ((amount * accuracy / whole : ℕ) : ℚ) ≤ ((amount * accuracy : ℕ) : ℚ) / whole :=
    Nat.cast_div_le
  have units : (0 : ℚ) < accuracy := by exact_mod_cast accuracy_pos
  calc (proRata amount whole value : ℚ)
      ≤ ((amount * accuracy / whole : ℕ) : ℚ) * value / accuracy := by
        simpa only [Nat.cast_mul] using outer
    _ ≤ ((amount * accuracy : ℕ) : ℚ) / whole * value / accuracy := by gcongr
    _ = amount * value / whole := by
        push_cast
        field_simp

/-- A quotient of numbers is less than one above its integer part. -/
theorem div_lt_floor_succ (dividend divisor : ℕ) :
    (dividend / divisor : ℚ) < ((dividend / divisor : ℕ) : ℚ) + 1 := by
  have bound := Nat.lt_floor_add_one ((dividend : ℚ) / divisor)
  rwa [Nat.floor_div_eq_div] at bound

theorem exact_lt_proRata :
    (amount * value / whole : ℚ) < proRata amount whole value + 1 + value / accuracy := by
  have units : (0 : ℚ) < accuracy := by exact_mod_cast accuracy_pos
  have inner := div_lt_floor_succ (amount * accuracy) whole
  have outer := div_lt_floor_succ (amount * accuracy / whole * value) accuracy
  push_cast at inner outer
  calc (amount * value / whole : ℚ)
      = amount * accuracy / whole * (value / accuracy) := by field_simp
    _ ≤ (((amount * accuracy / whole : ℕ) : ℚ) + 1) * (value / accuracy) := by gcongr
    _ = ((amount * accuracy / whole : ℕ) : ℚ) * value / accuracy + value / accuracy := by ring
    _ < proRata amount whole value + 1 + value / accuracy := by
        have part : (proRata amount whole value : ℚ) =
            ((amount * accuracy / whole * value / accuracy : ℕ) : ℚ) := rfl
        rw [part]
        linarith

end GlitchRuntime.Lib

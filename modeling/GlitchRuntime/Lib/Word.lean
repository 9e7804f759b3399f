import Mathlib

/-! # Fixed-width unsigned words

Saturating, checked and narrowing operations on words, each read through the natural number it
denotes, and when a wrapping subtraction keeps an order.
-/

namespace GlitchRuntime.Lib

/-- Unsigned words of 256 bits. -/
abbrev U256 := BitVec 256

/-- Unsigned words of 64 bits. -/
abbrev U64 := BitVec 64

/-- Byte strings of a fixed length. -/
abbrev Bytes (n : ℕ) := Vector UInt8 n

namespace Word

variable {w v : ℕ} {a b c : BitVec w}

/-- The sum, or the largest word when it does not fit. -/
def saturatingAdd (a b : BitVec w) : BitVec w :=
  if a.toNat + b.toNat < 2 ^ w then a + b else BitVec.allOnes w

/-- The product, or the largest word when it does not fit. -/
def saturatingMul (a b : BitVec w) : BitVec w :=
  if a.toNat * b.toNat < 2 ^ w then a * b else BitVec.allOnes w

/-- The difference, or zero when it would be negative. -/
def saturatingSub (a b : BitVec w) : BitVec w :=
  if b ≤ a then a - b else 0

/-- The difference, or nothing when it would be negative. -/
def checkedSub (a b : BitVec w) : Option (BitVec w) :=
  if b ≤ a then some (a - b) else none

/-- The smaller of two words. -/
def lesser (a b : BitVec w) : BitVec w :=
  if a ≤ b then a else b

/-- The word at another width, or the largest word there when it does not fit. -/
def saturateTo (v : ℕ) (a : BitVec w) : BitVec v :=
  if a.toNat < 2 ^ v then a.setWidth v else BitVec.allOnes v

@[simp] theorem toNat_saturatingAdd :
    (saturatingAdd a b).toNat = min (a.toNat + b.toNat) (2 ^ w - 1) := by
  unfold saturatingAdd
  split_ifs with fits
  · rw [BitVec.toNat_add, Nat.mod_eq_of_lt fits]
    omega
  · rw [BitVec.toNat_allOnes]
    omega

@[simp] theorem toNat_saturatingMul :
    (saturatingMul a b).toNat = min (a.toNat * b.toNat) (2 ^ w - 1) := by
  unfold saturatingMul
  split_ifs with fits
  · rw [BitVec.toNat_mul, Nat.mod_eq_of_lt fits]
    omega
  · rw [BitVec.toNat_allOnes]
    omega

@[simp] theorem toNat_saturatingSub : (saturatingSub a b).toNat = a.toNat - b.toNat := by
  unfold saturatingSub
  split_ifs with covered
  · exact BitVec.toNat_sub_of_le covered
  · rw [BitVec.le_def] at covered
    change (0#w).toNat = _
    rw [BitVec.toNat_zero]
    omega

@[simp] theorem toNat_lesser : (lesser a b).toNat = min a.toNat b.toNat := by
  unfold lesser
  simp only [BitVec.le_def]
  split_ifs <;> omega

@[simp] theorem toNat_saturateTo : (saturateTo v a).toNat = min a.toNat (2 ^ v - 1) := by
  unfold saturateTo
  split_ifs with fits
  · rw [BitVec.toNat_setWidth, Nat.mod_eq_of_lt fits]
    omega
  · rw [BitVec.toNat_allOnes]
    omega

theorem checkedSub_of_le (covered : b ≤ a) : checkedSub a b = some (a - b) := by
  simp [checkedSub, covered]

@[simp] theorem checkedSub_eq_some : checkedSub a b = some c ↔ b ≤ a ∧ a - b = c := by
  unfold checkedSub
  split_ifs with covered <;> simp [covered]

@[simp] theorem checkedSub_eq_none : checkedSub a b = none ↔ a < b := by
  unfold checkedSub
  split_ifs with covered <;> simp [BitVec.le_def, BitVec.lt_def] at covered ⊢ <;> omega

/-- A saturating sum under a word that is not the largest one has not saturated. -/
theorem toNat_saturatingAdd_of_lt (small : (saturatingAdd a b).toNat < 2 ^ w - 1) :
    (saturatingAdd a b).toNat = a.toNat + b.toNat := by
  rw [toNat_saturatingAdd] at small ⊢
  omega

/-- A saturating product under a word that is not the largest one has not saturated. -/
theorem toNat_saturatingMul_of_lt (small : (saturatingMul a b).toNat < 2 ^ w - 1) :
    (saturatingMul a b).toNat = a.toNat * b.toNat := by
  rw [toNat_saturatingMul] at small ⊢
  omega

/-- Narrowing a word that fits loses nothing. -/
theorem setWidth_saturateTo (fits : a.toNat < 2 ^ v) : (saturateTo v a).toNat = a.toNat := by
  rw [toNat_saturateTo]
  omega

/-- A wrapping difference is off by a full turn exactly when the subtrahend is larger. -/
theorem toNat_sub_cases (a b : BitVec w) :
    (a - b).toNat = if a < b then 2 ^ w + a.toNat - b.toNat else a.toNat - b.toNat := by
  have aFits := a.isLt
  have bFits := b.isLt
  split_ifs with wraps
  · rw [BitVec.lt_def] at wraps
    rw [BitVec.toNat_sub, Nat.mod_eq_of_lt (by omega)]
    omega
  · exact BitVec.toNat_sub_of_le (BitVec.not_lt.mp wraps)

/-- Taking one word off two ordered ones keeps their order unless only the smaller wraps. -/
theorem sub_le_sub_iff (c : BitVec w) (ordered : b ≤ a) : b - c ≤ a - c ↔ ¬ (b < c ∧ c ≤ a) := by
  have aFits := a.isLt
  have bFits := b.isLt
  have cFits := c.isLt
  rw [BitVec.le_def, toNat_sub_cases, toNat_sub_cases]
  rw [BitVec.le_def] at ordered
  simp only [BitVec.lt_def, BitVec.le_def]
  split_ifs <;> omega

end Word

end GlitchRuntime.Lib

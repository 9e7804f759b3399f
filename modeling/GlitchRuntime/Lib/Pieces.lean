import Mathlib

/-! # A range in pieces

A rate comes to as much over a range as over the pieces that it is cut into, unless something
saturates. The amounts of the pieces may be held at a cap, one by one; then their sum tells whether
any of them was.
-/

namespace GlitchRuntime.Lib

/-- What a rate comes to over a length, with the length and the product held at a cap. -/
def saturatedProduct (cap rate length : ℕ) : ℕ := min (rate * min length cap) cap

/-- What a rate comes to over the pieces of a range that is cut at increasing points. -/
def pieces (cap rate : ℕ) : ℕ → List ℕ → List ℕ
  | _, [] => []
  | start, cut :: rest => saturatedProduct cap rate (cut - start) :: pieces cap rate cut rest

/-- The sum of amounts that are each held at a limit. -/
def limitedSum (limit : ℕ) (amounts : List ℕ) : ℕ := (amounts.map fun amount => min amount limit).sum

section product

variable {cap rate length : ℕ}

@[simp] theorem saturatedProduct_zero_rate : saturatedProduct cap 0 length = 0 := by
  simp [saturatedProduct]

theorem saturatedProduct_pos (capped : 0 < cap) (rated : 0 < rate) (long : 0 < length) :
    0 < saturatedProduct cap rate length := by
  have product : 0 < rate * min length cap := Nat.mul_pos rated (lt_min long capped)
  exact lt_min product capped

/-- A product within the cap is exact. -/
theorem saturatedProduct_of_le (fits : rate * length ≤ cap) :
    saturatedProduct cap rate length = rate * length := by
  rcases Nat.eq_zero_or_pos rate with rfl | rated
  · simp
  · have short : length ≤ cap := (Nat.le_mul_of_pos_left length rated).trans fits
    rw [saturatedProduct, min_eq_left short, min_eq_left fits]

/-- A product below the cap was not held there. -/
theorem saturatedProduct_of_lt (below : saturatedProduct cap rate length < cap) :
    saturatedProduct cap rate length = rate * length := by
  rcases Nat.eq_zero_or_pos rate with rfl | rated
  · simp
  · have product : rate * min length cap < cap := by
      unfold saturatedProduct at below
      omega
    have short : min length cap < cap := (Nat.le_mul_of_pos_left _ rated).trans_lt product
    have whole : min length cap = length := by omega
    rw [saturatedProduct, min_eq_left product.le, whole]

/-- A product below the cap and the exact one for the rest come to the whole. -/
theorem saturatedProduct_add {start cut stop : ℕ} (after : start < cut) (order : cut < stop)
    (below : saturatedProduct cap rate (cut - start) < cap) :
    saturatedProduct cap rate (cut - start) + rate * (stop - cut) = rate * (stop - start) := by
  have parts : cut - start + (stop - cut) = stop - start := by omega
  rw [saturatedProduct_of_lt below, ← Nat.mul_add, parts]

/-- A product is within a bound below the cap exactly when the exact one is. -/
theorem saturatedProduct_le_iff {bound : ℕ} (below : bound < cap) :
    saturatedProduct cap rate length ≤ bound ↔ rate * length ≤ bound := by
  constructor
  · intro within
    rwa [saturatedProduct_of_lt (within.trans_lt below)] at within
  · intro within
    rwa [saturatedProduct_of_le (within.trans below.le)]

end product

section pieces

variable {cap rate start stop : ℕ} {cuts : List ℕ}

@[simp] theorem pieces_sum_zero_rate {points : List ℕ} : (pieces cap 0 start points).sum = 0 := by
  induction points generalizing start with
  | nil => rfl
  | cons cut rest ih => simp [pieces, ih]

theorem pieces_sum_pos (capped : 0 < cap) (rated : 0 < rate) {points : List ℕ}
    (cut : points ≠ []) (increasing : List.IsChain (· < ·) (start :: points)) :
    0 < (pieces cap rate start points).sum := by
  cases points with
  | nil => contradiction
  | cons first rest =>
    have after := (List.isChain_cons_cons.mp increasing).1
    have piece : 0 < saturatedProduct cap rate (first - start) :=
      saturatedProduct_pos capped rated (Nat.sub_pos_of_lt after)
    rw [pieces, List.sum_cons]
    omega

/-- Pieces that add up to less than the cap come to what the rate does. -/
theorem pieces_sum_of_lt (increasing : List.IsChain (· < ·) (start :: (cuts ++ [stop])))
    (below : (pieces cap rate start (cuts ++ [stop])).sum < cap) :
    start < stop ∧ (pieces cap rate start (cuts ++ [stop])).sum = rate * (stop - start) := by
  induction cuts generalizing start with
  | nil =>
    have after := (List.isChain_cons_cons.mp increasing).1
    simp only [List.nil_append, pieces, List.sum_cons, List.sum_nil, Nat.add_zero] at below ⊢
    exact ⟨after, saturatedProduct_of_lt below⟩
  | cons cut rest ih =>
    obtain ⟨after, later⟩ := List.isChain_cons_cons.mp increasing
    simp only [List.cons_append, pieces, List.sum_cons] at below ⊢
    obtain ⟨order, tail⟩ := ih later (by omega)
    refine ⟨by omega, ?_⟩
    rw [tail]
    exact saturatedProduct_add after order (by omega)

/-- Two pieces or more within the cap come to what the rate does. -/
theorem pieces_sum_of_le (capped : 0 < cap) {cut : ℕ}
    (increasing : List.IsChain (· < ·) (start :: cut :: (cuts ++ [stop])))
    (fits : (pieces cap rate start (cut :: (cuts ++ [stop]))).sum ≤ cap) :
    (pieces cap rate start (cut :: (cuts ++ [stop]))).sum = rate * (stop - start) := by
  rcases Nat.eq_zero_or_pos rate with rfl | rated
  · rw [pieces_sum_zero_rate, Nat.zero_mul]
  · -- each part is positive, so neither is at the cap
    obtain ⟨after, later⟩ := List.isChain_cons_cons.mp increasing
    have first : 0 < saturatedProduct cap rate (cut - start) :=
      saturatedProduct_pos capped rated (Nat.sub_pos_of_lt after)
    have others := pieces_sum_pos capped rated (by simp) later
    rw [pieces, List.sum_cons] at fits ⊢
    have below : (pieces cap rate cut (cuts ++ [stop])).sum < cap := by omega
    obtain ⟨order, tail⟩ := pieces_sum_of_lt later below
    rw [tail]
    exact saturatedProduct_add after order (by omega)

/-- Within the cap, the pieces come to as much as the whole range. -/
theorem pieces_sum (capped : 0 < cap)
    (increasing : List.IsChain (· < ·) (start :: (cuts ++ [stop])))
    (fits : (pieces cap rate start (cuts ++ [stop])).sum ≤ cap) :
    (pieces cap rate start (cuts ++ [stop])).sum = saturatedProduct cap rate (stop - start) := by
  cases cuts with
  | nil => simp [pieces]
  | cons cut rest =>
    have exact := pieces_sum_of_le capped increasing fits
    rw [List.cons_append] at fits ⊢
    rw [exact] at fits ⊢
    exact (saturatedProduct_of_le fits).symm

end pieces

section limit

variable {limit : ℕ} {amounts : List ℕ}

theorem le_limitedSum : min amounts.sum limit ≤ limitedSum limit amounts := by
  induction amounts with
  | nil => simp
  | cons amount rest ih =>
    simp only [limitedSum, List.map_cons, List.sum_cons] at ih ⊢
    omega

@[simp] theorem limitedSum_append (first second : List ℕ) :
    limitedSum limit (first ++ second) = limitedSum limit first + limitedSum limit second := by
  simp [limitedSum]

theorem limitedSum_of_le (within : amounts.sum ≤ limit) :
    limitedSum limit amounts = amounts.sum := by
  induction amounts with
  | nil => rfl
  | cons amount rest ih =>
    rw [List.sum_cons] at within
    have tail := ih (by omega)
    simp only [limitedSum, List.map_cons, List.sum_cons] at tail ⊢
    omega

end limit

/-- The pieces of a range, held at a limit one by one, come to the whole range held there exactly
when there is only one piece or the range is within the limit. -/
theorem limitedSum_pieces_iff {cap rate start stop limit : ℕ} {cuts : List ℕ} (capped : 0 < cap)
    (limited : 0 < limit) (increasing : List.IsChain (· < ·) (start :: (cuts ++ [stop])))
    (fits : (pieces cap rate start (cuts ++ [stop])).sum ≤ cap) :
    limitedSum limit (pieces cap rate start (cuts ++ [stop])) =
        min (saturatedProduct cap rate (stop - start)) limit ↔
      cuts = [] ∨ saturatedProduct cap rate (stop - start) ≤ limit := by
  have whole := pieces_sum capped increasing fits
  cases cuts with
  | nil => simp [limitedSum, pieces]
  | cons cut rest =>
    rw [← whole]
    constructor
    · intro same
      right
      by_contra beyond
      rcases Nat.eq_zero_or_pos rate with rfl | rated
      · simp at beyond
      · obtain ⟨after, later⟩ := List.isChain_cons_cons.mp increasing
        have first : 0 < saturatedProduct cap rate (cut - start) :=
          saturatedProduct_pos capped rated (Nat.sub_pos_of_lt after)
        have others : 0 < (pieces cap rate cut (rest ++ [stop])).sum :=
          pieces_sum_pos capped rated (by simp) later
        have tail : min (pieces cap rate cut (rest ++ [stop])).sum limit ≤
            limitedSum limit (pieces cap rate cut (rest ++ [stop])) := le_limitedSum
        simp only [List.cons_append, pieces, List.sum_cons, limitedSum, List.map_cons]
          at same beyond tail
        omega
    · rintro (none | within)
      · contradiction
      · rw [limitedSum_of_le within, min_eq_left within]

end GlitchRuntime.Lib

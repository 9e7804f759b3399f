import GlitchRuntime.Xcm.AssetTrader

/-! # Refunds after purchases

A purchase counts its weight twice, so that a refund may be for twice the weight that was paid for.
Once a payment is remembered some refund is larger than it, unless the counter of weight stands at
its largest value and the payment covers all of that.
-/

namespace GlitchRuntime.Xcm

open Lib Word

variable {Location Asset : Type} [DecidableEq Location]

/-- The call is a purchase that goes through. -/
def Buys (trader : Trader Location) : Label Location Asset → Prop
  | .buyWeight rates weight payment => (buyWeight rates weight payment).refusal trader = none
  | .refundWeight _ => False

instance (trader : Trader Location) (label : Label Location Asset) :
    Decidable (Buys trader label) :=
  match label with
  | .buyWeight _ _ _ => inferInstanceAs (Decidable (_ = none))
  | .refundWeight _ => inferInstanceAs (Decidable False)

/-- No refund overflows its product or its counter, and each is within the payment. -/
def Safe (trader : Trader Location) : Prop :=
  ∀ slot ∈ trader.slot, ∀ weight : U64,
    slot.unitsPerSecond.toNat * (lesser weight trader.weight).toNat < 2 ^ 128 ∧
      lesser weight trader.weight ≤ trader.weight ∧
      ∀ refund ∈ (refundWeight trader weight).1, refund.2 ≤ slot.amount

/-- The counter of weight stands at its largest value, and the payment covers all of it. -/
def Covered (trader : Trader Location) (slot : Slot Location) : Prop :=
  trader.weight.toNat = 2 ^ 64 - 1 ∧ slot.unitsPerSecond.toNat ≤ 2 ^ 64 + 1 ∧
    slot.unitsPerSecond.toNat * (2 ^ 64 - 1) / 10 ^ 12 ≤ slot.amount.toNat

instance (trader : Trader Location) (slot : Slot Location) : Decidable (Covered trader slot) :=
  inferInstanceAs (Decidable (_ ∧ _ ∧ _))

/-- A payment is for some weight sold at its rate, and the counter holds that weight twice, as far
as it goes. -/
def Counted (trader : Trader Location) : Prop :=
  ∀ slot ∈ trader.slot, 0 < slot.amount.toNat ∧ ∃ sold : ℕ,
    slot.amount.toNat ≤ slot.unitsPerSecond.toNat * sold / 10 ^ 12 ∧
      min (2 * sold) (2 ^ 64 - 1) ≤ trader.weight.toNat

/-! ## What purchases count -/

/-- Fees for parts of a weight come to at most the fee for all of it. -/
theorem fees_le (rate first second : ℕ) : rate * first / 10 ^ 12 + rate * second / 10 ^ 12 ≤
    rate * (first + second) / 10 ^ 12 := by
  rw [Nat.mul_add]
  exact Nat.div_add_div_le_add_div

section purchases

variable {rates : Rates Location Asset} {weight : U64} {payment unused : Assets Location}
  {trader after : Trader Location}

omit [DecidableEq Location] in
/-- A quoted fee is at most its rate for the weight. -/
theorem quote_amount {fee : Slot Location} (quoted : quote rates weight payment = .ok fee) :
    fee.amount.toNat ≤ fee.unitsPerSecond.toNat * weight.toNat / 10 ^ 12 := by
  simp only [quote, bind_eq_ok, okOr_eq_ok] at quoted
  obtain ⟨⟨key, _⟩, -, quoted⟩ := quoted
  cases key with
  | named => contradiction
  | concrete id =>
    simp only [bind_eq_ok, okOr_eq_ok, pure_eq_ok] at quoted
    obtain ⟨_, -, units, -, rfl⟩ := quoted
    have same := toNat_widen weight
    rw [BitVec.toNat_udiv, toNat_weightPerSecond, toNat_saturatingMul, same]
    exact Nat.div_le_div_right (min_le_left ..)

theorem buyWeight_counted (counted : Counted trader)
    (success : (buyWeight rates weight payment).run trader = .ok unused after) :
    Counted after := by
  obtain ⟨fee, quoted, ⟨-, rfl⟩ | ⟨charged, -, info, known, rfl⟩⟩ := buyWeight_ok success
  · exact counted
  have atRate := quote_amount quoted
  have pays : 0 < fee.amount.toNat := by
    apply Nat.pos_of_ne_zero
    intro free
    exact charged (BitVec.toNat_inj.mp free)
  unfold newInfo at known
  cases remembers : trader.slot with
  | none =>
    -- the first payment is for the weight that it was quoted for
    rw [remembers] at known
    obtain rfl := Except.ok.inj known
    intro slot isFee
    obtain rfl := Option.some.inj isFee
    refine ⟨pays, weight.toNat, atRate, ?_⟩
    simp only [record, toNat_saturatingAdd]
    omega
  | some before =>
    obtain ⟨positive, sold, paid, within⟩ := counted before remembers
    rw [remembers] at known
    simp only at known
    split_ifs at known with here changed
    · -- the same location at the same rate: both payments are for both weights
      obtain rfl := Except.ok.inj known
      intro slot isSum
      obtain rfl := Option.some.inj isSum
      rw [not_not] at changed
      refine ⟨?_, sold + weight.toNat, ?_, ?_⟩
      · simp only [toNat_saturatingAdd]
        omega
      · have sums := fees_le fee.unitsPerSecond.toNat sold weight.toNat
        rw [← changed] at paid
        simp only [toNat_saturatingAdd]
        omega
      · simp only [record, toNat_saturatingAdd]
        omega
    · -- another location: the payment stays, and the counter only grows
      obtain rfl := Except.ok.inj known
      intro slot isBefore
      obtain rfl := Option.some.inj isBefore
      refine ⟨positive, sold, paid, ?_⟩
      simp only [record, toNat_saturatingAdd]
      have small := trader.weight.isLt
      omega

end purchases

/-- Whatever was bought, the payment is counted. -/
theorem run_counted {log : List (Receipt Location)} {trader : Trader Location}
    (run : Machine.GuardedRun
      (trading : Machine (Trader Location) (Label Location Asset) XcmError (Receipt Location))
      Buys {} log trader) : Counted trader := by
  apply run.preserves fun reached _ => Counted reached
  · intro slot absent
    contradiction
  · intro current next receipts out label counted buys taken
    cases label with
    | refundWeight weight => exact buys.elim
    | buyWeight rates weight payment =>
      obtain ⟨unused, after, success⟩ := Action.refusal_eq_none.mp buys
      simp only [trading, success, Except.ok.injEq, Prod.mk.injEq] at taken
      obtain ⟨rfl, -⟩ := taken
      exact buyWeight_counted counted success

/-! ## When refunds are safe -/

omit [DecidableEq Location] in
theorem refundWeight_amount {trader : Trader Location} {slot : Slot Location}
    (remembers : trader.slot = some slot) (weight : U64) :
    (refundWeight trader weight).1 = some
      (slot.location, refundAmount slot.unitsPerSecond (lesser weight trader.weight)) := by
  simp only [refundWeight, remembers]

/-- A product that fits is refunded by its rate. -/
theorem toNat_refundAmount_of_lt {unitsPerSecond : U128} {weight : U64}
    (fits : unitsPerSecond.toNat * weight.toNat < 2 ^ 128) :
    (refundAmount unitsPerSecond weight).toNat =
      unitsPerSecond.toNat * weight.toNat / 10 ^ 12 := by
  rw [toNat_refundAmount, Nat.mod_eq_of_lt fits]

/-- The largest refund is for all of the counter. -/
theorem toNat_lesser_allOnes (weight : U64) :
    (lesser (BitVec.allOnes 64) weight).toNat = weight.toNat := by
  have small := weight.isLt
  rw [toNat_lesser, BitVec.toNat_allOnes]
  omega

omit [DecidableEq Location] in
/-- A payment that covers a refund of all of the counter was counted up to its largest value. -/
theorem Counted.full {trader : Trader Location} {slot : Slot Location} (counted : Counted trader)
    (remembers : trader.slot = some slot)
    (covers : slot.unitsPerSecond.toNat * trader.weight.toNat / 10 ^ 12 ≤ slot.amount.toNat) :
    trader.weight.toNat = 2 ^ 64 - 1 := by
  obtain ⟨positive, sold, paid, within⟩ := counted slot remembers
  by_contra below
  have twice : sold + sold ≤ trader.weight.toNat := by
    have small := trader.weight.isLt
    omega
  -- below it, such a refund is for at least twice the weight that was sold
  have double : slot.unitsPerSecond.toNat * sold / 10 ^ 12 +
      slot.unitsPerSecond.toNat * sold / 10 ^ 12 ≤ slot.amount.toNat :=
    calc _ ≤ slot.unitsPerSecond.toNat * (sold + sold) / 10 ^ 12 := fees_le ..
      _ ≤ slot.unitsPerSecond.toNat * trader.weight.toNat / 10 ^ 12 :=
        Nat.div_le_div_right (Nat.mul_le_mul_left _ twice)
      _ ≤ slot.amount.toNat := covers
  omega

omit [DecidableEq Location] in
/-- Every refund of a covered payment is safe. -/
theorem Covered.safe {trader : Trader Location} {slot : Slot Location}
    (covered : Covered trader slot) (remembers : trader.slot = some slot) : Safe trader := by
  intro other isOther weight
  obtain rfl : slot = other := Option.some.inj (remembers.symm.trans isOther)
  obtain ⟨full, rate, paid⟩ := covered
  have least : (lesser weight trader.weight).toNat ≤ 2 ^ 64 - 1 := by
    rw [toNat_lesser, full]
    omega
  have product : slot.unitsPerSecond.toNat * (lesser weight trader.weight).toNat ≤
      slot.unitsPerSecond.toNat * (2 ^ 64 - 1) := Nat.mul_le_mul_left _ least
  have fits : slot.unitsPerSecond.toNat * (lesser weight trader.weight).toNat < 2 ^ 128 := by
    omega
  refine ⟨fits, ?_, ?_⟩
  · rw [BitVec.le_def, toNat_lesser]
    omega
  · intro refund isRefund
    rw [refundWeight_amount remembers] at isRefund
    obtain rfl := Option.some.inj isRefund
    rw [BitVec.le_def, toNat_refundAmount_of_lt fits]
    exact (Nat.div_le_div_right product).trans paid

/-- After purchases refunds are safe exactly when no payment is remembered, or the counter of weight
stands at its largest value and the payment covers all of it. -/
theorem refunds_safe_iff {log : List (Receipt Location)} {trader : Trader Location}
    (run : Machine.GuardedRun
      (trading : Machine (Trader Location) (Label Location Asset) XcmError (Receipt Location))
      Buys {} log trader) :
    Safe trader ↔ ∀ slot ∈ trader.slot, Covered trader slot := by
  constructor
  · intro safe slot remembers
    obtain ⟨fits, -, refunds⟩ := safe slot remembers (BitVec.allOnes 64)
    have refunded := refunds _ (refundWeight_amount remembers _)
    rw [BitVec.le_def, toNat_refundAmount_of_lt fits, toNat_lesser_allOnes] at refunded
    rw [toNat_lesser_allOnes] at fits
    have full := (run_counted run).full remembers refunded
    rw [full] at fits refunded
    exact ⟨full, by omega, refunded⟩
  · intro covered slot remembers
    exact (covered slot remembers).safe remembers slot remembers

/-! ## A refund of twice the fee -/

/-- The machine of a trader that only sells. -/
def selling : Machine (Trader ℕ) (Label ℕ ℕ) XcmError (Receipt ℕ) :=
  trading.guarded Buys .tooExpensive

/-- As many units as there is weight at most, at one location. -/
def plenty : Assets ℕ where
  fungible := [(.concrete 1, 2 ^ 64)]
  nodup := List.nodup_singleton _

/-- After a purchase of all the weight that the counter holds, refunds are safe. -/
theorem largestPurchase_safe :
    Safe (selling.outcome {} [.buyWeight flatRates (BitVec.allOnes 64) plenty]).1 :=
  (refunds_safe_iff (Machine.guardedRun_outcome (by decide +kernel))).mpr (by decide +kernel)

/-- After a purchase of ten units of weight twenty are refunded. -/
theorem purchase_unsafe :
    ¬ ∀ (log : List (Receipt ℕ)) (trader : Trader ℕ),
      Machine.GuardedRun (trading : Machine (Trader ℕ) (Label ℕ ℕ) XcmError (Receipt ℕ))
        Buys {} log trader → Safe trader := by
  intro safe
  have bought : Machine.GuardedRun trading Buys {} _
      (selling.outcome {} [.buyWeight flatRates 10 (hundred 1)]).1 :=
    Machine.guardedRun_outcome (by decide +kernel)
  have reached : (selling.outcome {} [.buyWeight flatRates 10 (hundred 1)]).1 =
      ⟨20, some ⟨1, 10, weightPerSecond⟩⟩ := by
    decide +kernel
  rw [reached] at bought
  have refund := (safe _ _ bought ⟨1, 10, weightPerSecond⟩ rfl 20).2.2
    (1, 20) (by decide +kernel)
  exact absurd refund (by decide +kernel)

end GlitchRuntime.Xcm

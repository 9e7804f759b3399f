import GlitchRuntime.Ethereum.Validation

/-! # Priorities of Ethereum transactions

A better tip should not give a worse place in the pool. The weight of the gas comes off the scaled
tip in wrapping arithmetic, so it does exactly when no tip is too small for its gas.
-/

namespace GlitchRuntime.Ethereum

open Lib Lib.Word

variable {Cost : Type} {gasometer : Gasometer Cost} {chain : Chain}

/-- The scaled tip is less than the weight that comes off it. -/
def Underflows (chain : Chain) (t : Transaction) : Prop :=
  checkedSub (tipQuotient chain t) (gasWeight t) = none

/-- The tip pays the weight of the gas at the rate of its class. -/
def TipCoversWeight (chain : Chain) (t : Transaction) : Prop :=
  31250 * t.gasLimit.toNat * (priorityDivisor chain t.action t.input).toNat ≤ t.tip.toNat

/-- The first of two transactions of one class tips no less, or the tips are equal and only the
second is of the lower class. -/
def Favoured (chain : Chain) (first second : Transaction) : Prop :=
  isLowerPriority chain first.action first.input =
      isLowerPriority chain second.action second.input ∧ second.tip ≤ first.tip ∨
    first.tip = second.tip ∧ isLowerPriority chain first.action first.input = false ∧
      isLowerPriority chain second.action second.input = true

theorem priorityDivisor_pos (action : TransactionAction) (input : List UInt8) :
    0 < (priorityDivisor chain action input).toNat := by
  unfold priorityDivisor
  split_ifs <;> decide

/-- Below the block's gas limit a weight is an exact multiple of the gas. -/
theorem gasWeight_toNat {t : Transaction} (bounded : t.gasLimit < blockGasLimit) :
    (gasWeight t).toNat = 31250 * t.gasLimit.toNat := by
  have rate : weightPerGas.toNat = 31250 := by decide
  have limit : t.gasLimit.toNat < 4294967295 := bounded
  simp only [gasWeight, gasToWeight, toNat_saturatingMul, toNat_saturateTo, rate]
  omega

/-- A tip covers its weight exactly when the subtraction of the two does not wrap. -/
theorem tipCoversWeight_iff {t : Transaction} (bounded : t.gasLimit < blockGasLimit) :
    TipCoversWeight chain t ↔ gasWeight t ≤ tipQuotient chain t := by
  rw [BitVec.le_def, gasWeight_toNat bounded, tipQuotient, BitVec.toNat_udiv,
    Nat.le_div_iff_mul_le (priorityDivisor_pos _ _)]
  rfl

theorem underflows_iff {t : Transaction} (bounded : t.gasLimit < blockGasLimit) :
    Underflows chain t ↔ ¬ TipCoversWeight chain t := by
  rw [tipCoversWeight_iff bounded, Underflows, checkedSub_eq_none, BitVec.not_le]

/-- The favoured of two transactions has at least the scaled tip of the other. -/
theorem tipQuotient_le_of_favoured {first second : Transaction}
    (favoured : Favoured chain first second) :
    tipQuotient chain second ≤ tipQuotient chain first := by
  rw [BitVec.le_def, tipQuotient, tipQuotient, BitVec.toNat_udiv, BitVec.toNat_udiv]
  obtain ⟨sameClass, better⟩ | ⟨sameTip, upper, lower⟩ := favoured
  · have sameDivisor : priorityDivisor chain second.action second.input =
        priorityDivisor chain first.action first.input := by
      simp only [priorityDivisor, sameClass]
    rw [sameDivisor]
    exact Nat.div_le_div_right better
  · simp only [priorityDivisor, upper, lower, sameTip]
    exact Nat.div_le_div_left (by decide) (by decide)

/-- Two accepted transactions of one gas limit, the first favoured over the second: the first has
no lower priority, and neither subtraction wraps, exactly when the tip of the second covers its
weight. The order alone fails exactly when only the tip of the first covers its weight. -/
theorem priority_order_iff {origin₁ origin₂ : H160} {first second : Transaction}
    {nonce₁ nonce₂ : U256} {priority₁ priority₂ : U64}
    (accepted₁ : validateTransactionCommon gasometer chain origin₁ (transactionData first) =
      .ok (nonce₁, priority₁))
    (accepted₂ : validateTransactionCommon gasometer chain origin₂ (transactionData second) =
      .ok (nonce₂, priority₂))
    (sameGas : first.gasLimit = second.gasLimit) (favoured : Favoured chain first second) :
    (priority₂ ≤ priority₁ ∧ ¬ Underflows chain first ∧ ¬ Underflows chain second ↔
      TipCoversWeight chain second) ∧
    (priority₂ ≤ priority₁ ↔
      ¬ (TipCoversWeight chain first ∧ ¬ TipCoversWeight chain second)) := by
  obtain ⟨acceptable₁, -, rfl⟩ := validateTransactionCommon_eq_ok.mp accepted₁
  obtain ⟨acceptable₂, -, rfl⟩ := validateTransactionCommon_eq_ok.mp accepted₂
  have sameWeight : gasWeight first = gasWeight second := by simp only [gasWeight, sameGas]
  have scaled := tipQuotient_le_of_favoured favoured
  rw [underflows_iff acceptable₁.gasBounded, underflows_iff acceptable₂.gasBounded,
    tipCoversWeight_iff acceptable₁.gasBounded, tipCoversWeight_iff acceptable₂.gasBounded,
    sameWeight]
  have order := sub_le_sub_iff (gasWeight second) scaled
  rw [← BitVec.not_le] at order
  constructor
  · constructor
    · rintro ⟨-, -, covered⟩
      exact not_not.mp covered
    · intro covered
      have firstCovered : gasWeight second ≤ tipQuotient chain first :=
        BitVec.le_trans covered scaled
      exact ⟨order.mpr fun wraps => wraps.1 covered, not_not.mpr firstCovered,
        not_not.mpr covered⟩
  · rw [order, and_comm]

/-! ## Two creations of a rich account

The gas limit is the least a creation needs. A tip of 16.6 thousand gwei covers its weight, none
at all does not, and the transaction without a tip comes out first.
-/

/-- A creation without data at some price. -/
def creationAt (gasPrice : U256) : Transaction :=
  .legacy {
    nonce := 0
    gasPrice := gasPrice
    gasLimit := 53000
    action := .create
    value := 0
    input := []
    signature := ⟨some glitchTestnetChainId⟩ }

/-- The better tip gets a lower priority, through an underflow. -/
theorem priority_order_fails :
    ¬ ∀ (chain : Chain) (origin₁ origin₂ : H160) (first second : Transaction)
      (nonce₁ nonce₂ : U256) (priority₁ priority₂ : U64),
      validateTransactionCommon cloverEvmConfig.gasometer chain origin₁ (transactionData first) =
        .ok (nonce₁, priority₁) →
      validateTransactionCommon cloverEvmConfig.gasometer chain origin₂ (transactionData second) =
        .ok (nonce₂, priority₂) →
      first.gasLimit = second.gasLimit → Favoured chain first second →
      priority₂ ≤ priority₁ ∧ ¬ Underflows chain first ∧ ¬ Underflows chain second := by
  intro ordered
  have both := ordered richChain default default (creationAt 16600000000000) (creationAt minGasPrice) 0 0
    (1659000000 - 1656250000) (0 - 1656250000) (by decide +kernel) (by decide +kernel) rfl
    (.inl ⟨rfl, by decide +kernel⟩)
  exact absurd both.1 (by decide +kernel)

/-- Two tips that cover their weight are in order, without an underflow. -/
theorem creations_in_order :
    (2750000 : U64) ≤ 12750000 ∧ ¬ Underflows richChain (creationAt 16700000000000) ∧
      ¬ Underflows richChain (creationAt 16600000000000) := by
  have covered : TipCoversWeight richChain (creationAt 16600000000000) := by
    unfold TipCoversWeight
    decide +kernel
  have first : validateTransactionCommon cloverEvmConfig.gasometer richChain default
      (transactionData (creationAt 16700000000000)) = .ok (0, 12750000) := by decide +kernel
  have second : validateTransactionCommon cloverEvmConfig.gasometer richChain default
      (transactionData (creationAt 16600000000000)) = .ok (0, 2750000) := by decide +kernel
  exact (priority_order_iff first second rfl (.inl ⟨rfl, by decide +kernel⟩)).1.mpr covered

end GlitchRuntime.Ethereum

import GlitchRuntime.Lib.Currency

/-! # Resolving negative imbalances

An amount that was debited, and not yet taken off the issuance, is split and resolved into deposits.
What a deposit does not take is burned. So resolving it whole conserves it: what was debited is
credited or burned.
-/

namespace GlitchRuntime.Lib

namespace CurrencyOps

variable {Account : Type} [DecidableEq Account] {ops : CurrencyOps Account}

/-- An imbalance was resolved by credits, and what they leave of it was burned. -/
structure Resolves (ops : CurrencyOps Account) (before after : ops.Store) (imbalance : ℕ)
    (credits : List (Credit Account)) : Prop where
  free : ∀ account, ops.freeBalance after account =
    ops.freeBalance before account + Credit.totalTo credits account
  within : Credit.total credits ≤ imbalance
  issuance : ops.totalIssuance after =
    ops.totalIssuance before - (imbalance - Credit.total credits)

namespace Resolves

theorem nothing (store : ops.Store) : Resolves ops store store 0 [] where
  free _ := rfl
  within := le_rfl
  issuance := rfl

/-- Imbalances that are resolved one after the other are resolved together. -/
theorem append {first second third : ops.Store} {early late : List (Credit Account)}
    {amount more : ℕ} (left : Resolves ops first second amount early)
    (right : Resolves ops second third more late) :
    Resolves ops first third (amount + more) (early ++ late) where
  free account := by rw [right.free, left.free, Credit.totalTo_append, Nat.add_assoc]
  within := by
    rw [Credit.total_append]
    exact Nat.add_le_add left.within right.within
  issuance := by
    have bound := left.within
    have bound' := right.within
    rw [right.issuance, left.issuance, Credit.total_append]
    omega

end Resolves

end CurrencyOps

namespace Currency

variable {Account : Type} [DecidableEq Account] (currency : Currency Account)

/-- `Currency::resolve_creating`: what cannot be deposited is burned. -/
theorem deposit_resolves (store : currency.Store) (who : Account) (amount : ℕ) :
    currency.Resolves store (currency.dropNegative (currency.depositCreating store who amount).1
        (amount - (currency.depositCreating store who amount).2)) amount
      [⟨who, (currency.depositCreating store who amount).2⟩] := by
  obtain ⟨credits, within⟩ := currency.depositCreating_credits store who amount
  constructor
  · intro account
    rw [currency.dropNegative_free, credits.free]
    simp
  · simpa using within
  · rw [currency.dropNegative_issuance, credits.issuance]
    simp

end Currency

end GlitchRuntime.Lib

import Mathlib

/-! # The balances of one currency

A pallet that only keeps accounts of a currency reads free balances, corrects one by a signed
amount and transfers between two. The rest of the chain may move the same balances on its own.
-/

namespace GlitchRuntime.Lib

/-- The operations of a currency over its storage; nothing stands for a refusal. -/
structure LedgerOps (Account : Type) where
  Store : Type
  freeBalance : Store → Account → ℕ
  /-- Correct a balance by a signed amount. -/
  updateBalance : Store → Account → ℤ → Option Store
  /-- Move an amount from the first account to the second. -/
  transfer : Store → Account → Account → ℕ → Option Store

namespace LedgerOps

variable {Account : Type} [DecidableEq Account]

/-- Every operation that goes through moves the balances by exactly its amount. -/
structure Exact (ops : LedgerOps Account) : Prop where
  updateBalance {store after : ops.Store} {who : Account} {amount : ℤ} :
    ops.updateBalance store who amount = some after →
      ∀ account, (ops.freeBalance after account : ℤ) =
        ops.freeBalance store account + if account = who then amount else 0
  transfer {store after : ops.Store} {source target : Account} {amount : ℕ} :
    ops.transfer store source target amount = some after →
      ∀ account, ops.freeBalance after account + (if account = source then amount else 0) =
        ops.freeBalance store account + if account = target then amount else 0

/-! ## Plain balances -/

/-- A signed correction, refused when it would leave less than nothing. -/
def correct (balances : Account → ℕ) (who : Account) (amount : ℤ) : Option (Account → ℕ) :=
  if 0 ≤ (balances who : ℤ) + amount then
    some (Function.update balances who ((balances who : ℤ) + amount).toNat)
  else none

/-- A transfer that needs the funds; moving nothing, or to oneself, always works. -/
def move (balances : Account → ℕ) (source target : Account) (amount : ℕ) : Option (Account → ℕ) :=
  if source = target ∨ amount = 0 then some balances
  else if amount ≤ balances source then
    some (Function.update (Function.update balances source (balances source - amount)) target
      (balances target + amount))
  else none

theorem correct_exact {balances after : Account → ℕ} {who : Account} {amount : ℤ}
    (moved : correct balances who amount = some after) (account : Account) :
    (after account : ℤ) = balances account + if account = who then amount else 0 := by
  unfold correct at moved
  split_ifs at moved with covered
  obtain rfl := Option.some.inj moved
  by_cases same : account = who
  · subst same
    rw [Function.update_self, if_pos rfl, Int.toNat_of_nonneg covered]
  · rw [Function.update_of_ne same, if_neg same, add_zero]

theorem move_exact {balances after : Account → ℕ} {source target : Account} {amount : ℕ}
    (moved : move balances source target amount = some after) (account : Account) :
    after account + (if account = source then amount else 0) =
      balances account + if account = target then amount else 0 := by
  unfold move at moved
  split_ifs at moved with still covered
  · obtain rfl := Option.some.inj moved
    rcases still with rfl | rfl
    · rfl
    · simp
  · obtain rfl := Option.some.inj moved
    by_cases isTarget : account = target
    · subst isTarget
      have apart : account ≠ source := fun same => still (.inl same.symm)
      rw [Function.update_self, if_pos rfl, if_neg apart, add_zero]
    · rw [Function.update_of_ne isTarget, if_neg isTarget]
      by_cases isSource : account = source
      · subst isSource
        rw [Function.update_self, if_pos rfl]
        omega
      · rw [Function.update_of_ne isSource, if_neg isSource]

/-- Balances with nothing else beside them. -/
def plain (Account : Type) [DecidableEq Account] : LedgerOps Account where
  Store := Account → ℕ
  freeBalance balances account := balances account
  updateBalance := correct
  transfer := move

theorem plain_exact : (plain Account).Exact where
  updateBalance := correct_exact
  transfer := move_exact

end LedgerOps

end GlitchRuntime.Lib

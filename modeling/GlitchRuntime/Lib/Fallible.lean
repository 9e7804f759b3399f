import Mathlib

/-! # Computations that may be refused

`ok_or` and `ensure!` over `Except`, with what a success of each, and of a sequence, tells.
-/

namespace GlitchRuntime.Lib

variable {α β ε : Type}

/-- The value of an option, or the error when there is none. -/
def okOr (value : Option α) (problem : ε) : Except ε α :=
  match value with
  | some found => .ok found
  | none => .error problem

/-- Go on only under the condition. -/
def ensure (condition : Prop) [Decidable condition] (problem : ε) : Except ε Unit :=
  if condition then .ok () else .error problem

@[simp] theorem okOr_eq_ok {value : Option α} {problem : ε} {found : α} :
    okOr value problem = .ok found ↔ value = some found := by
  cases value <;> simp [okOr]

@[simp] theorem okOr_eq_error {value : Option α} {problem other : ε} :
    okOr value problem = .error other ↔ value = none ∧ problem = other := by
  cases value <;> simp [okOr]

@[simp] theorem ensure_eq_ok {condition : Prop} [Decidable condition] {problem : ε} {done : Unit} :
    ensure condition problem = .ok done ↔ condition := by
  simp only [ensure]
  split_ifs with holds <;> simp [holds]

@[simp] theorem ensure_eq_error {condition : Prop} [Decidable condition] {problem other : ε} :
    ensure condition problem = .error other ↔ ¬ condition ∧ problem = other := by
  simp only [ensure]
  split_ifs with holds <;> simp [holds]

@[simp] theorem pure_eq_ok {value result : α} :
    (pure value : Except ε α) = .ok result ↔ value = result := by
  simp [pure, Except.pure]

@[simp] theorem pure_ne_error {value : α} {problem : ε} :
    (pure value : Except ε α) ≠ .error problem := by
  simp [pure, Except.pure]

@[simp] theorem ok_bind (value : α) (rest : α → Except ε β) :
    Except.ok value >>= rest = rest value := rfl

/-- A sequence succeeds when its first half does and the rest does on its result. -/
@[simp] theorem bind_eq_ok {first : Except ε α} {rest : α → Except ε β} {result : β} :
    first >>= rest = .ok result ↔ ∃ value, first = .ok value ∧ rest value = .ok result := by
  cases first with
  | error problem => simp [bind, Except.bind]
  | ok value => simp [bind, Except.bind]

/-- A sequence fails in its first half, or in the rest on what the first half gave. -/
@[simp] theorem bind_eq_error {first : Except ε α} {rest : α → Except ε β} {problem : ε} :
    first >>= rest = .error problem ↔
      first = .error problem ∨ ∃ value, first = .ok value ∧ rest value = .error problem := by
  cases first with
  | error other => simp [bind, Except.bind]
  | ok value => simp [bind, Except.bind]

end GlitchRuntime.Lib

import GlitchRuntime.Lib.Fallible

/-! # Writes to storage that may be refused halfway

A computation over storage that is refused leaves the storage as far as it got, writes included.
Only a storage transaction around it takes them back.
-/

namespace GlitchRuntime.Lib

/-- A computation over the storage `σ`: a refusal keeps the writes made before it. -/
abbrev Action (ε σ : Type) : Type → Type := EStateM ε σ

namespace Action

variable {ε σ α β : Type}

/-- A computation that does not touch the storage. -/
def ofExcept (outcome : Except ε α) : Action ε σ α :=
  fun storage => match outcome with
    | .ok value => .ok value storage
    | .error problem => .error problem storage

/-- Run inside a storage transaction: a refusal takes every write back. -/
def transactional (action : Action ε σ α) : Action ε σ α :=
  fun before => match action.run before with
    | .ok value after => .ok value after
    | .error problem _ => .error problem before

/-- The storage after a computation, and nothing where it was refused. -/
def committed (action : Action ε σ α) (before : σ) : Except ε σ :=
  match action.transactional.run before with
  | .ok _ after => .ok after
  | .error problem _ => .error problem

/-- The problem that a computation is refused with, if it is. -/
def refusal (action : Action ε σ α) (before : σ) : Option ε :=
  match action.run before with
  | .ok _ _ => none
  | .error problem _ => some problem

/-- What a computation gives, without the storage it leaves. -/
def result (action : Action ε σ α) (before : σ) : Except ε α :=
  match action.run before with
  | .ok value _ => .ok value
  | .error problem _ => .error problem

/-- What a computation gives and the storage it leaves, forgetting what a refused one wrote. -/
def outcome (action : Action ε σ α) (before : σ) : Except ε (α × σ) :=
  match action.run before with
  | .ok value after => .ok (value, after)
  | .error problem _ => .error problem

variable {before after : σ} {value : α}

theorem run_pure_ok {result : α} :
    EStateM.run (pure value : Action ε σ α) before = .ok result after ↔
      value = result ∧ before = after := by
  simp

theorem run_get_ok {result : σ} :
    EStateM.run (get : Action ε σ σ) before = .ok result after ↔
      before = result ∧ before = after := by
  simp

theorem run_modify_ok {write : σ → σ} {done : PUnit} :
    EStateM.run (modify write : Action ε σ PUnit) before = .ok done after ↔
      write before = after := by
  simp

theorem run_ofExcept_ok {outcome : Except ε α} :
    EStateM.run (ofExcept outcome : Action ε σ α) before = .ok value after ↔
      outcome = .ok value ∧ before = after := by
  cases outcome <;> simp [ofExcept, EStateM.run]

/-- A sequence succeeds when its first half does and the rest does from the storage that left. -/
theorem run_bind_ok {first : Action ε σ α} {rest : α → Action ε σ β} {result : β} :
    EStateM.run (first >>= rest) before = .ok result after ↔
      ∃ value middle, first.run before = .ok value middle ∧
        (rest value).run middle = .ok result after := by
  rw [EStateM.run_bind]
  cases first.run before with
  | ok value middle => simp
  | error problem middle => simp

theorem run_pure_error {problem : ε} :
    EStateM.run (pure value : Action ε σ α) before ≠ .error problem after := by
  simp

theorem run_get_error {problem : ε} :
    EStateM.run (get : Action ε σ σ) before ≠ .error problem after := by
  simp

theorem run_modify_error {write : σ → σ} {problem : ε} :
    EStateM.run (modify write : Action ε σ PUnit) before ≠ .error problem after := by
  simp

theorem run_ofExcept_error {outcome : Except ε α} {problem : ε} :
    EStateM.run (ofExcept outcome : Action ε σ α) before = .error problem after ↔
      outcome = .error problem ∧ before = after := by
  cases outcome <;> simp [ofExcept, EStateM.run]

/-- A sequence is refused in its first half, or in the rest from the storage that its first half
left. -/
theorem run_bind_error {first : Action ε σ α} {rest : α → Action ε σ β} {problem : ε} :
    EStateM.run (first >>= rest) before = .error problem after ↔
      first.run before = .error problem after ∨
        ∃ value middle, first.run before = .ok value middle ∧
          (rest value).run middle = .error problem after := by
  rw [EStateM.run_bind]
  cases first.run before with
  | ok value middle => simp
  | error problem middle => simp

theorem outcome_eq_ok {action : Action ε σ α} :
    action.outcome before = .ok (value, after) ↔ action.run before = .ok value after := by
  simp only [outcome]
  cases action.run before <;> simp

@[simp] theorem outcome_get : (get : Action ε σ σ).outcome before = .ok (before, before) := rfl

@[simp] theorem outcome_modify (write : σ → σ) :
    (modify write : Action ε σ PUnit).outcome before = .ok ((), write before) := rfl

@[simp] theorem outcome_ofExcept (result : Except ε α) :
    (ofExcept result : Action ε σ α).outcome before = (fun value => (value, before)) <$> result := by
  cases result <;> rfl

/-- Outcomes compose as fallible functions of the storage do. -/
@[simp] theorem outcome_bind (first : Action ε σ α) (rest : α → Action ε σ β) :
    (first >>= rest).outcome before =
      first.outcome before >>= fun (value, middle) => (rest value).outcome middle := by
  simp only [outcome, EStateM.run_bind]
  cases first.run before <;> rfl

@[simp] theorem outcome_transactional (action : Action ε σ α) :
    action.transactional.outcome before = action.outcome before := by
  simp only [transactional, outcome, EStateM.run]
  cases action before <;> rfl

theorem committed_eq_ok {action : Action ε σ α} :
    action.committed before = .ok after ↔ ∃ value, action.run before = .ok value after := by
  simp only [committed, transactional, EStateM.run]
  cases action before <;> simp

theorem refusal_eq_none {action : Action ε σ α} :
    action.refusal before = none ↔ ∃ value after, action.run before = .ok value after := by
  simp only [refusal, EStateM.run]
  cases action before <;> simp

theorem refusal_eq_some {action : Action ε σ α} {problem : ε} :
    action.refusal before = some problem ↔ ∃ after, action.run before = .error problem after := by
  simp only [refusal, EStateM.run]
  cases action before <;> simp

theorem result_eq_ok {action : Action ε σ α} :
    action.result before = .ok value ↔ ∃ after, action.run before = .ok value after := by
  simp only [result, EStateM.run]
  cases action before <;> simp

theorem result_eq_error {action : Action ε σ α} {problem : ε} :
    action.result before = .error problem ↔ ∃ after, action.run before = .error problem after := by
  simp only [result, EStateM.run]
  cases action before <;> simp

/-- A refusal of the computation leaves the storage as it was. -/
def Atomic (action : Action ε σ α) : Prop :=
  ∀ before problem after, action.run before = .error problem after → after = before

theorem atomic_transactional (action : Action ε σ α) : Atomic action.transactional := by
  intro before problem after refused
  simp only [transactional, EStateM.run] at refused
  cases ran : action before with
  | ok value written => simp [ran] at refused
  | error other written =>
    simp only [ran, EStateM.Result.error.injEq] at refused
    exact refused.2.symm

theorem atomic_pure (value : α) : Atomic (pure value : Action ε σ α) := by
  intro before problem after refused
  exact absurd refused run_pure_error

theorem atomic_modify (write : σ → σ) : Atomic (modify write : Action ε σ PUnit) := by
  intro before problem after refused
  exact absurd refused run_modify_error

theorem atomic_get_bind {rest : σ → Action ε σ α} (atomic : ∀ before, Atomic (rest before)) :
    Atomic (get >>= rest) := by
  intro before problem after refused
  exact atomic before before problem after refused

/-- A check before the computation writes nothing. -/
theorem atomic_ofExcept_bind {result : Except ε α} {rest : α → Action ε σ β}
    (atomic : ∀ value, Atomic (rest value)) : Atomic (ofExcept result >>= rest) := by
  intro before problem after refused
  rcases run_bind_error.mp refused with checked | ⟨value, middle, passed, rest⟩
  · exact (run_ofExcept_error.mp checked).2.symm
  · obtain ⟨-, rfl⟩ := run_ofExcept_ok.mp passed
    exact atomic value before problem after rest

/-- What follows the computation may write when it is never refused. -/
theorem atomic_bind_of_unrefused {first : Action ε σ α} {rest : α → Action ε σ β}
    (atomic : Atomic first) (unrefused : ∀ value before, (rest value).refusal before = none) :
    Atomic (first >>= rest) := by
  intro before problem after refused
  rcases run_bind_error.mp refused with stopped | ⟨value, middle, -, later⟩
  · exact atomic before problem after stopped
  · have none := unrefused value middle
    rw [refusal_eq_some.mpr ⟨after, later⟩] at none
    contradiction

end Action

end GlitchRuntime.Lib

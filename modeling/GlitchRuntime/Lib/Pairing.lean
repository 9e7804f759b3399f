import Mathlib

/-! # Growing and shrinking partial bijections

A pair of tables that are each other's inverse is a partial bijection. Adding a pair of elements
without partners, or removing the pair of an element, keeps it one; each side changes at one key.
Where a fallback outside the paired elements completes it to a total map, that map is injective.
-/

namespace PEquiv

variable {α β : Type*} [DecidableEq α] [DecidableEq β]

/-- The pairs of `f` and one more, of elements that had no partner. -/
def insert (f : α ≃. β) (a : α) (b : β) (freeLeft : f a = none) (freeRight : f.symm b = none) :
    α ≃. β where
  toFun := Function.update f a (some b)
  invFun := Function.update f.symm b (some a)
  inv x y := by
    have others : f.symm y = some x ↔ f x = some y := f.eq_some_iff
    simp only [Function.update_apply]
    split_ifs with right left left
    · subst right left
      simp
    · subst right
      rw [← others, freeRight]
      simp [Ne.symm left]
    · subst left
      rw [others, freeLeft]
      simp [Ne.symm right]
    · exact others

/-- The pairs of `f` but that of `a`. -/
def erase (f : α ≃. β) (a : α) : α ≃. β where
  toFun := Function.update f a none
  invFun y := if f.symm y = some a then none else f.symm y
  inv x y := by
    have others : f.symm y = some x ↔ f x = some y := f.eq_some_iff
    simp only [Function.update_apply]
    split_ifs with paired same same
    · simp
    · rw [← others, paired]
      simp [Ne.symm same]
    · subst same
      simp [paired]
    · exact others

@[simp] theorem coe_insert (f : α ≃. β) (a : α) (b : β) (freeLeft : f a = none)
    (freeRight : f.symm b = none) :
    ⇑(f.insert a b freeLeft freeRight) = Function.update f a (some b) := rfl

@[simp] theorem coe_symm_insert (f : α ≃. β) (a : α) (b : β) (freeLeft : f a = none)
    (freeRight : f.symm b = none) :
    ⇑(f.insert a b freeLeft freeRight).symm = Function.update f.symm b (some a) := rfl

omit [DecidableEq β] in
@[simp] theorem coe_erase (f : α ≃. β) (a : α) :
    ⇑(f.erase a) = Function.update f a none := rfl

/-- Erasing a pair clears one key on the other side. -/
theorem coe_symm_erase (f : α ≃. β) {a : α} {b : β} (paired : f a = some b) :
    ⇑(f.erase a).symm = Function.update f.symm b none := by
  funext y
  change (if f.symm y = some a then none else f.symm y) = _
  have partner : f.symm y = some a ↔ y = b := by
    rw [f.eq_some_iff, paired, Option.some.injEq, eq_comm]
  simp only [Function.update_apply, partner]

omit [DecidableEq β] in
theorem erase_le (f : α ≃. β) (a : α) : f.erase a ≤ f := by
  intro x y paired
  change Function.update f a none x = some y at paired
  rw [Function.update_apply] at paired
  split_ifs at paired
  exact paired

omit [DecidableEq α] [DecidableEq β] in
/-- What has no partner among more pairs has none among fewer, on either side. -/
theorem eq_none_of_le {f g : α ≃. β} (fewer : f ≤ g) :
    (∀ {a : α}, g a = none → f a = none) ∧ ∀ {b : β}, g.symm b = none → f.symm b = none := by
  constructor
  · intro a free
    cases paired : f a with
    | none => rfl
    | some b =>
      have kept : g a = some b := fewer a b paired
      rw [free] at kept
      contradiction
  · intro b free
    cases paired : f.symm b with
    | none => rfl
    | some a =>
      have kept : g.symm b = some a := g.eq_some_iff.mpr (fewer a b (f.eq_some_iff.mp paired))
      rw [free] at kept
      contradiction

omit [DecidableEq α] [DecidableEq β] in
/-- Where partners denote something, and each thing has one canonical name, no thing belongs to two
elements and every element is found under the canonical name exactly when all partners are
canonical. -/
theorem identifies_iff {γ : Type*} (f : α ≃. β) {denote : β → γ} {canonical : γ → β} :
    ((∀ {a other : α} {b partner : β}, f a = some b → f other = some partner →
        denote b = denote partner → a = other) ∧
      ∀ {a : α} {b : β}, f a = some b → f.symm (canonical (denote b)) = some a) ↔
      ∀ {a : α} {b : β}, f a = some b → canonical (denote b) = b := by
  constructor
  · rintro ⟨-, found⟩ a b paired
    have named : f a = some (canonical (denote b)) := f.eq_some_iff.mp (found paired)
    exact Option.some.inj (named.symm.trans paired)
  · intro named
    constructor
    · intro a other b partner first second same
      apply f.inj first
      rw [← named first, same, named second]
      exact second
    · intro a b paired
      rw [named paired]
      exact f.eq_some_iff.mpr paired

/-- The partner of an element, or a fallback when it has none. -/
def resolve (f : α ≃. β) (fallback : α → β) (a : α) : β := (f a).getD (fallback a)

omit [DecidableEq α] [DecidableEq β] in
/-- With an injective fallback outside the partners, different elements resolve differently. -/
theorem resolve_injective (f : α ≃. β) {fallback : α → β} (apart : Function.Injective fallback)
    (outside : ∀ a other, f a ≠ some (fallback other)) :
    Function.Injective (f.resolve fallback) := by
  intro first second same
  simp only [resolve] at same
  cases left : f first with
  | none =>
    cases right : f second with
    | none =>
      apply apart
      simpa [left, right] using same
    | some partner =>
      have clash : fallback first = partner := by simpa [left, right] using same
      exact absurd (clash ▸ right) (outside second first)
  | some partner =>
    cases right : f second with
    | none =>
      have clash : partner = fallback second := by simpa [left, right] using same
      exact absurd (clash ▸ left) (outside first second)
    | some other =>
      have equal : partner = other := by simpa [left, right] using same
      exact f.inj (equal ▸ left) right

end PEquiv

import GlitchRuntime.Lib.Runs

/-! # One machine seen as another

A view of the states of one machine as states of another is a simulation when the other machine
follows every step with some steps of its own, or none. Whatever the first machine reaches, the
other then reaches as well, seen through the view.
-/

namespace GlitchRuntime.Lib

namespace Machine

variable {σ τ ι κ ε δ ρ π : Type*} {concrete : Machine σ ι ε ρ} {abstract : Machine τ κ δ π}

theorem Run.single {source target : σ} {allowed : ι → Prop} {label : ι} {out : List ρ}
    (permitted : allowed label) (taken : concrete.step source label = .ok (target, out)) :
    Run concrete allowed source out target := by
  simpa using Run.snoc (.nil source) permitted taken

/-- That a machine gets from one state to another somehow. -/
def Leads (m : Machine σ ι ε ρ) (source target : σ) : Prop :=
  ∃ receipts, Run m (fun _ => True) source receipts target

namespace Leads

variable {source middle target : σ}

theorem refl (source : σ) : Leads concrete source source := ⟨[], .nil source⟩

theorem single {label : ι} {out : List ρ} (taken : concrete.step source label = .ok (target, out)) :
    Leads concrete source target := ⟨out, .single trivial taken⟩

theorem trans (left : Leads concrete source middle) (right : Leads concrete middle target) :
    Leads concrete source target := by
  obtain ⟨first, before⟩ := left
  obtain ⟨second, after⟩ := right
  exact ⟨first ++ second, before.append after⟩

end Leads

/-- What a machine reaches, a machine that follows each of its steps reaches too. -/
theorem Reachable.simulated {allowed : ι → Prop} {initial : σ → Prop} {starts : τ → Prop} {target : σ}
    {receipts : List ρ} (view : σ → τ) (reached : Reachable concrete initial allowed target receipts)
    (start : ∀ source, initial source → starts (view source))
    (step : ∀ {current next : σ} {log out : List ρ} {label : ι},
      Reachable concrete initial allowed current log → allowed label →
      concrete.step current label = .ok (next, out) → Leads abstract (view current) (view next)) :
    ∃ followed, Reachable abstract starts (fun _ => True) (view target) followed := by
  obtain ⟨source, begins, run⟩ := reached
  induction run with
  | nil => exact ⟨[], view _, start _ begins, .nil _⟩
  | snoc before permitted taken ih =>
    obtain ⟨followed, here⟩ := ih
    obtain ⟨more, moved⟩ := step ⟨_, begins, before⟩ permitted taken
    exact ⟨followed ++ more, here.extend moved⟩

end Machine

end GlitchRuntime.Lib

import Mathlib

/-! # Runs of a machine that leaves receipts

A machine takes a state and a label to a new state and the receipts of that step, or refuses the
label. A refused label leaves no trace: the state stays, and the run does not record it. Runs
carry the receipts of their steps in order, so an invariant may speak of the state and of
everything that happened on the way to it.
-/

namespace GlitchRuntime.Lib

/-- A deterministic machine over states `σ` and labels `ι`, refusing with `ε` and leaving `ρ`. -/
structure Machine (σ ι ε ρ : Type*) where
  step : σ → ι → Except ε (σ × List ρ)

namespace Machine

variable {σ ι ε ρ : Type*} {m : Machine σ ι ε ρ} {allowed : ι → Prop}

/-- A finite run over the allowed labels, carrying the receipts of its steps. -/
inductive Run (m : Machine σ ι ε ρ) (allowed : ι → Prop) : σ → List ρ → σ → Prop
  | nil (source : σ) : Run m allowed source [] source
  | snoc {source middle target : σ} {receipts out : List ρ} {label : ι} :
      Run m allowed source receipts middle → allowed label →
      m.step middle label = .ok (target, out) →
      Run m allowed source (receipts ++ out) target

/-- The states, with their receipts, that runs reach from the initial ones. -/
def Reachable (m : Machine σ ι ε ρ) (initial : σ → Prop) (allowed : ι → Prop)
    (target : σ) (receipts : List ρ) : Prop :=
  ∃ source, initial source ∧ Run m allowed source receipts target

namespace Run

variable {source middle target : σ} {first second : List ρ}

/-- What every step preserves, a whole run preserves. -/
theorem preserves (invariant : σ → List ρ → Prop)
    (run : Run m allowed source first target) (start : invariant source [])
    (step : ∀ {current next : σ} {log out : List ρ} {label : ι}, invariant current log →
      allowed label → m.step current label = .ok (next, out) → invariant next (log ++ out)) :
    invariant target first := by
  induction run with
  | nil => exact start
  | snoc _ permitted taken ih => exact step ih permitted taken

theorem append (left : Run m allowed source first middle)
    (right : Run m allowed middle second target) :
    Run m allowed source (first ++ second) target := by
  induction right with
  | nil => simpa using left
  | snoc _ permitted taken ih =>
    rw [← List.append_assoc]
    exact .snoc ih permitted taken

/-- Fewer allowed labels make fewer runs. -/
theorem mono {wider : ι → Prop} (widen : ∀ label, allowed label → wider label)
    (run : Run m allowed source first target) : Run m wider source first target := by
  induction run with
  | nil => exact .nil _
  | snoc _ permitted taken ih => exact .snoc ih (widen _ permitted) taken

end Run

namespace Reachable

variable {initial : σ → Prop} {target : σ} {receipts : List ρ}

/-- The induction rule for everything reachable. -/
theorem invariant (inv : σ → List ρ → Prop)
    (reached : Reachable m initial allowed target receipts)
    (start : ∀ source, initial source → inv source [])
    (step : ∀ {current next : σ} {log out : List ρ} {label : ι}, inv current log →
      allowed label → m.step current label = .ok (next, out) → inv next (log ++ out)) :
    inv target receipts := by
  obtain ⟨source, begins, run⟩ := reached
  exact run.preserves inv (start source begins) step

theorem extend {next : σ} {more : List ρ} (reached : Reachable m initial allowed target receipts)
    (run : Run m allowed target more next) :
    Reachable m initial allowed next (receipts ++ more) :=
  reached.imp fun _ ⟨begins, before⟩ => ⟨begins, before.append run⟩

end Reachable

/-- Where a label leads that may be refused: a refused one leaves the state as it was. -/
def attempt (m : Machine σ ι ε ρ) (source : σ) (label : ι) : σ :=
  match m.step source label with
  | .ok (target, _) => target
  | .error _ => source

/-- What a label keeps if it is taken, it keeps. -/
theorem attempt_keeps {γ : Type*} (field : σ → γ) {source : σ} {label : ι}
    (keeps : ∀ {target : σ} {out : List ρ}, m.step source label = .ok (target, out) →
      field target = field source) : field (m.attempt source label) = field source := by
  unfold attempt
  split
  · next target out taken => exact keeps taken
  · rfl

/-- Feed the labels to the machine in order, stopping at the first refusal. -/
def replay (m : Machine σ ι ε ρ) : σ → List ι → Except ε (σ × List ρ)
  | source, [] => .ok (source, [])
  | source, label :: rest =>
    match m.step source label with
    | .error problem => .error problem
    | .ok (middle, out) =>
      match replay m middle rest with
      | .error problem => .error problem
      | .ok (target, more) => .ok (target, out ++ more)

/-- A successful replay of allowed labels is a run. -/
theorem run_of_replay {labels : List ι} {source target : σ} {receipts : List ρ}
    (permitted : ∀ label ∈ labels, allowed label)
    (success : m.replay source labels = .ok (target, receipts)) :
    Run m allowed source receipts target := by
  induction labels generalizing source target receipts with
  | nil =>
    simp only [replay, Except.ok.injEq, Prod.mk.injEq] at success
    obtain ⟨rfl, rfl⟩ := success
    exact .nil _
  | cons label rest ih =>
    simp only [replay] at success
    split at success
    · contradiction
    · next middle out taken =>
      split at success
      · contradiction
      · next later more replayed =>
        simp only [Except.ok.injEq, Prod.mk.injEq] at success
        obtain ⟨rfl, rfl⟩ := success
        have here : Run m allowed source out middle := by
          simpa using Run.snoc (.nil source) (permitted label (List.mem_cons_self ..)) taken
        exact here.append
          (ih (fun other member => permitted other (List.mem_cons_of_mem _ member)) replayed)

/-- Where the labels lead if all of them are taken, and back to the source otherwise. -/
def outcome (m : Machine σ ι ε ρ) (source : σ) (labels : List ι) : σ × List ρ :=
  match m.replay source labels with
  | .ok result => result
  | .error _ => (source, [])

/-- A complete replay of allowed labels is a run to its outcome. -/
theorem run_outcome {source : σ} {labels : List ι} (permitted : ∀ label ∈ labels, allowed label)
    (happens : (m.replay source labels).isOk = true) :
    Run m allowed source (m.outcome source labels).2 (m.outcome source labels).1 := by
  apply run_of_replay permitted
  unfold outcome
  cases replayed : m.replay source labels with
  | ok result => rfl
  | error refusal =>
    rw [replayed] at happens
    contradiction

theorem outcome_reachable {initial : σ → Prop} {source : σ} (begins : initial source)
    {labels : List ι} (permitted : ∀ label ∈ labels, allowed label)
    (happens : (m.replay source labels).isOk = true) :
    Reachable m initial allowed (m.outcome source labels).1 (m.outcome source labels).2 :=
  ⟨source, begins, run_outcome permitted happens⟩

/-! ## Runs that keep to a condition on every step -/

/-- A finite run every step of which meets a condition on the state before it and its label. -/
inductive GuardedRun (m : Machine σ ι ε ρ) (guard : σ → ι → Prop) : σ → List ρ → σ → Prop
  | nil (source : σ) : GuardedRun m guard source [] source
  | snoc {source middle target : σ} {receipts out : List ρ} {label : ι} :
      GuardedRun m guard source receipts middle → guard middle label →
      m.step middle label = .ok (target, out) →
      GuardedRun m guard source (receipts ++ out) target

/-- The machine that refuses every step off the guard. -/
def guarded (m : Machine σ ι ε ρ) (guard : σ → ι → Prop) [∀ state label, Decidable (guard state label)]
    (refusal : ε) : Machine σ ι ε ρ where
  step state label := if guard state label then m.step state label else .error refusal

namespace GuardedRun

variable {guard : σ → ι → Prop} {source target : σ} {log : List ρ}

/-- What every guarded step preserves, a guarded run preserves. -/
theorem preserves (invariant : σ → List ρ → Prop)
    (run : GuardedRun m guard source log target) (start : invariant source [])
    (step : ∀ {current next : σ} {receipts out : List ρ} {label : ι}, invariant current receipts →
      guard current label → m.step current label = .ok (next, out) →
      invariant next (receipts ++ out)) :
    invariant target log := by
  induction run with
  | nil => exact start
  | snoc _ met taken ih => exact step ih met taken

/-- A guarded run is a run over the labels its guard allows. -/
theorem run (permits : ∀ state label, guard state label → allowed label)
    (guardedRun : GuardedRun m guard source log target) : Run m allowed source log target := by
  induction guardedRun with
  | nil => exact .nil _
  | snoc _ met taken ih => exact .snoc ih (permits _ _ met) taken

end GuardedRun

/-- A run of the guarded machine keeps to the guard. -/
theorem Run.keepsGuard {guard : σ → ι → Prop} [∀ state label, Decidable (guard state label)]
    {refusal : ε} {source target : σ} {log : List ρ}
    (run : Run (m.guarded guard refusal) allowed source log target) :
    GuardedRun m guard source log target := by
  induction run with
  | nil => exact .nil _
  | snoc _ _ taken ih =>
    simp only [guarded] at taken
    split_ifs at taken with met
    exact .snoc ih met taken

/-- Where every step keeps a property exactly when it meets the guard, a whole run keeps it exactly
when all of its steps do. -/
theorem Run.iff_guardedRun {guard : σ → ι → Prop} {invariant property : σ → Prop}
    {source target : σ} {log : List ρ} (run : Run m allowed source log target)
    (begins : invariant source) (start : property source)
    (keeps : ∀ {current next : σ} {out : List ρ} {label : ι}, invariant current →
      m.step current label = .ok (next, out) → invariant next)
    (exact : ∀ {current next : σ} {out : List ρ} {label : ι}, invariant current →
      m.step current label = .ok (next, out) →
      (property next ↔ property current ∧ guard current label)) :
    property target ↔ GuardedRun m guard source log target := by
  constructor
  · have both : invariant target ∧ (property target → GuardedRun m guard source log target) := by
      induction run with
      | nil => exact ⟨begins, fun _ => .nil _⟩
      | snoc _ _ taken ih =>
        refine ⟨keeps ih.1 taken, fun after => ?_⟩
        have split := (exact ih.1 taken).mp after
        exact .snoc (ih.2 split.1) split.2 taken
    exact both.2
  · intro guarded
    have both := guarded.preserves (fun state _ => invariant state ∧ property state)
      ⟨begins, start⟩ fun ⟨holds, before⟩ met taken =>
        ⟨keeps holds taken, (exact holds taken).mpr ⟨before, met⟩⟩
    exact both.2

/-- What the guarded machine replays, the machine replays. -/
theorem replay_of_guarded {guard : σ → ι → Prop} [∀ state label, Decidable (guard state label)]
    {refusal : ε} {source target : σ} {labels : List ι} {receipts : List ρ}
    (success : (m.guarded guard refusal).replay source labels = .ok (target, receipts)) :
    m.replay source labels = .ok (target, receipts) := by
  induction labels generalizing source target receipts with
  | nil => exact success
  | cons label rest ih =>
    simp only [replay, guarded] at success ⊢
    split_ifs at success with met
    · cases taken : m.step source label with
      | error problem => simp [taken] at success
      | ok done =>
        obtain ⟨middle, out⟩ := done
        simp only [taken] at success ⊢
        cases replayed : (m.guarded guard refusal).replay middle rest with
        | error problem =>
          simp only [guarded] at replayed
          simp [replayed] at success
        | ok later =>
          obtain ⟨final, more⟩ := later
          rw [ih replayed]
          simp only [guarded] at replayed
          rw [replayed] at success
          exact success

/-- Labels that all keep to the guard lead where they lead without it. -/
theorem guarded_outcome {guard : σ → ι → Prop} [∀ state label, Decidable (guard state label)]
    {refusal : ε} {source : σ} {labels : List ι}
    (happens : ((m.guarded guard refusal).replay source labels).isOk = true) :
    (m.guarded guard refusal).outcome source labels = m.outcome source labels := by
  unfold outcome
  cases replayed : (m.guarded guard refusal).replay source labels with
  | error problem =>
    rw [replayed] at happens
    contradiction
  | ok done => rw [replay_of_guarded replayed]

/-- A complete replay by the guarded machine is a guarded run to its outcome. -/
theorem guardedRun_outcome {guard : σ → ι → Prop} [∀ state label, Decidable (guard state label)]
    {refusal : ε} {source : σ} {labels : List ι}
    (happens : ((m.guarded guard refusal).replay source labels).isOk = true) :
    GuardedRun m guard source ((m.guarded guard refusal).outcome source labels).2
      ((m.guarded guard refusal).outcome source labels).1 := by
  have run : Run (m.guarded guard refusal) (fun _ => True) source _ _ :=
    run_outcome (fun _ _ => trivial) happens
  exact run.keepsGuard

/-- Labels that the guarded machine replays lead along a guarded run. -/
theorem guardedRun_of_replay {guard : σ → ι → Prop} [∀ state label, Decidable (guard state label)]
    (refusal : ε) {source : σ} {labels : List ι}
    (happens : ((m.guarded guard refusal).replay source labels).isOk = true) :
    GuardedRun m guard source (m.outcome source labels).2 (m.outcome source labels).1 := by
  rw [← guarded_outcome happens]
  exact guardedRun_outcome happens

end Machine

end GlitchRuntime.Lib

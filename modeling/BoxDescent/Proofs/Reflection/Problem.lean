import BoxDescent.Problem.Basic
import BoxDescent.Proofs.Reflection.Factor

/-!
This module contains problems in reflected coordinates. A computation on such a problem is `Reflected`, if it
evaluates the problem at the reflections of the points at which the other one does, in the same order, and
ends alike.
-/

namespace BoxDescent

variable {n : Nat} (σ τ : Fin n → Bool)

noncomputable def Problem.reflect (p : Problem Extended n) : Problem Extended n :=
  { objective := fun x => p.objective (BoxDescent.reflect σ x)
    gradient := fun x => (p.gradient (BoxDescent.reflect σ x)).map (BoxDescent.reflect σ)
    hessianRow := p.hessianRow.map fun row x i => (row (BoxDescent.reflect σ x) i).map
      (Option.map (BoxDescent.reflect fun j => τ i ^^ σ j)) }

/-- The same evaluation, at the reflected point. Notes may differ in what they say. -/
inductive Event.Reflects : Event Extended n → Event Extended n → Prop where
  | objective (x : Vector Extended n) (v : Extended) :
    Reflects (.objective x v) (.objective (reflect σ x) v)
  | gradient (x : Vector Extended n) (g g' : Array Extended) :
    Reflects (.gradient x g) (.gradient (reflect σ x) g')
  | hessianRow (x : Vector Extended n) (i : Fin n) :
    Reflects (.hessianRow x i) (.hessianRow (reflect σ x) i)
  | note (m m' : Note Extended) : Reflects (.note m) (.note m')

abbrev Reflected {β γ : Type} (R : β → γ → Prop) (x : Run Extended n β) (y : Run Extended n γ) : Prop :=
  Logged.Parallel (Event.Reflects σ) Error.Alike R x y

variable {σ}

theorem reflected_note {R : Unit → Unit → Prop} (m m' : Note Extended) (h : R () ()) :
    Reflected σ R (note m) (note m') :=
  ⟨.cons (.note m m') .nil, .ok h⟩

theorem reflected_note_bind {β γ : Type} {R : β → γ → Prop} {m m' : Note Extended}
    {f : Unit → Run Extended n β} {g : Unit → Run Extended n γ} (h : Reflected σ R (f ()) (g ())) :
    Reflected σ R (note m >>= f) (note m' >>= g) :=
  Logged.Parallel.bind (reflected_note (R := fun _ _ => True) m m' trivial) fun _ _ _ => h

theorem countP_eq_of_forall₂ {β γ : Type} {R : β → γ → Prop} {p : β → Bool} {q : γ → Bool}
    (hpq : ∀ b c, R b c → q c = p b) {bs : List β} {cs : List γ} (h : List.Forall₂ R bs cs) :
    cs.countP q = bs.countP p := by
  induction h with
  | nil => rfl
  | cons hbc _ ih => rw [List.countP_cons, List.countP_cons, ih, hpq _ _ hbc]

namespace Event

variable {log log' : List (Event Extended n)} (h : List.Forall₂ (Reflects σ) log log')
include h

theorem objectiveCount_of_reflects : objectiveCount log' = objectiveCount log := by
  refine countP_eq_of_forall₂ ?_ h
  intro _ _ hevent
  cases hevent <;> rfl

theorem gradientCount_of_reflects : gradientCount log' = gradientCount log := by
  refine countP_eq_of_forall₂ ?_ h
  intro _ _ hevent
  cases hevent <;> rfl

end Event

namespace Problem

variable (σ) (p : Problem Extended n) (x : Vector Extended n)

theorem evalObjective_reflect :
    Reflected σ Eq (p.evalObjective x)
      ((p.reflect σ τ).evalObjective (BoxDescent.reflect σ x)) := by
  unfold evalObjective reflect
  dsimp only
  rw [reflect_reflect]
  cases p.objective x with
  | ok v => exact ⟨.cons (.objective x v) .nil, .ok rfl⟩
  | error e => exact Logged.parallel_fail (.same _)

theorem evalGradient_reflect :
    Reflected σ (fun g g' => g' = BoxDescent.reflect σ g) (p.evalGradient x)
      ((p.reflect σ τ).evalGradient (BoxDescent.reflect σ x)) := by
  unfold evalGradient reflect
  dsimp only
  rw [reflect_reflect]
  cases p.gradient x with
  | ok g => exact ⟨.cons (.gradient x _ _) .nil, .ok rfl⟩
  | error e =>
    cases e with
    | gradientLength g => exact ⟨.cons (.gradient x g g) .nil, .error (.same _)⟩
    | outOfRange => exact Logged.parallel_fail (.same _)
    | mismatch => exact Logged.parallel_fail (.same _)
    | notIndexable => exact Logged.parallel_fail (.same _)
    | overflow => exact Logged.parallel_fail (.same _)
    | zeroSlope => exact Logged.parallel_fail (.same _)

theorem evalHessianRow_reflect (i : Fin n) :
    Reflected σ (fun h h' => h' = h.map (BoxDescent.reflect fun j => τ i ^^ σ j)) (p.evalHessianRow x i)
      ((p.reflect σ τ).evalHessianRow (BoxDescent.reflect σ x) i) := by
  unfold evalHessianRow reflect
  dsimp only
  cases p.hessianRow with
  | none => exact Logged.parallel_pure rfl
  | some row =>
    dsimp only [Option.map_some]
    rw [reflect_reflect]
    cases row x i with
    | ok h => exact ⟨.cons (.hessianRow x i) .nil, .ok rfl⟩
    | error e => exact Logged.parallel_fail (.same _)

end Problem

end BoxDescent

import BoxDescent.Problem.Basic
import BoxDescent.Proofs.Logged

/-!
This module contains the evaluations of a problem, which answer what the objective and its gradient do and
fail where these do.
-/

namespace BoxDescent

namespace Problem

variable {α : Type} {n : Nat} {p : Problem α n} {E : Error α → Prop}

/-- `E` are errors that an evaluation of the objective or of the gradient may have. -/
structure Tolerates (p : Problem α n) (E : Error α → Prop) : Prop where
  objective : ∀ x e, p.objective x = .error e → E (.fault e)
  gradient : ∀ x e, p.gradient x = .error e → E (.fault e)

theorem tolerates_true (p : Problem α n) : p.Tolerates fun _ => True :=
  ⟨fun _ _ _ => trivial, fun _ _ _ => trivial⟩

theorem Tolerates.evalObjective (hE : p.Tolerates E) (x : Vector α n) :
    (p.evalObjective x).Meets (fun _ => True) E fun v => p.objective x = .ok v := by
  unfold Problem.evalObjective
  split
  . next v hv => exact Logged.meets_ok (fun _ _ => trivial) hv
  . next e he => exact Logged.meets_fail (hE.objective x e he)

theorem Tolerates.evalGradient (hE : p.Tolerates E) (x : Vector α n) :
    (p.evalGradient x).Meets (fun _ => True) E fun g => p.gradient x = .ok g := by
  unfold Problem.evalGradient
  split
  . next g hg => exact Logged.meets_ok (fun _ _ => trivial) hg
  . next g hg =>
    refine ⟨fun _ _ => trivial, ?_, nofun⟩
    intro e he
    cases he
    exact hE.gradient x _ hg
  . next e _ he => exact Logged.meets_fail (hE.gradient x e he)

theorem evalObjective_logs (p : Problem α n) (x : Vector α n) :
    (p.evalObjective x).Meets (fun e => ∃ v, e = .objective x v) (fun _ => True) fun v =>
      p.objective x = .ok v := by
  refine ⟨?_, fun _ _ => trivial, (p.tolerates_true.evalObjective x).value⟩
  unfold evalObjective
  split
  . simp
  . exact nofun

theorem evalGradient_logs (p : Problem α n) (x : Vector α n) :
    (p.evalGradient x).Meets (fun e => ∃ g, e = .gradient x g) (fun _ => True) fun g =>
      p.gradient x = .ok g := by
  refine ⟨?_, fun _ _ => trivial, (p.tolerates_true.evalGradient x).value⟩
  unfold evalGradient
  split
  . simp
  . simp
  . exact nofun

theorem objective_of_eval {x : Vector α n} {value : α} (h : (p.evalObjective x).result = .ok value) :
    p.objective x = .ok value :=
  (p.tolerates_true.evalObjective x).value value h

theorem gradient_of_eval {x grad : Vector α n} (h : (p.evalGradient x).result = .ok grad) :
    p.gradient x = .ok grad :=
  (p.tolerates_true.evalGradient x).value grad h

theorem eval_of_objective {x : Vector α n} {value : α} (h : p.objective x = .ok value) :
    (p.evalObjective x).result = .ok value := by
  unfold evalObjective
  rw [h]

theorem eval_of_gradient {x grad : Vector α n} (h : p.gradient x = .ok grad) :
    (p.evalGradient x).result = .ok grad := by
  unfold evalGradient
  rw [h]

theorem evalHessianRow_of_none (h : p.hessianRow = none) (x : Vector α n) (i : Fin n) :
    p.evalHessianRow x i = pure none := by
  unfold evalHessianRow
  rw [h]

theorem evalHessianRow_ok_iff {row : Vector α n → Fin n → Except (Fault α) (Option (Vector α n))}
    (h : p.hessianRow = some row) {x : Vector α n} {i : Fin n} {w : Option (Vector α n)} :
    (p.evalHessianRow x i).result = .ok w ↔ row x i = .ok w := by
  unfold evalHessianRow
  rw [h]
  dsimp only
  split
  . next w' hw =>
    show Except.ok w' = _ ↔ _
    rw [hw, Except.ok.injEq, Except.ok.injEq]
  . next e he =>
    rw [he]
    exact ⟨nofun, nofun⟩

end Problem

end BoxDescent

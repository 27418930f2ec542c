import BoxDescent.Event

/-!
This module contains the problems that are minimised: an objective with its gradient and, if there are
any, the rows of its Hessian. All three may fault at a point; evaluating them is logged.
-/

namespace BoxDescent

structure Problem (α : Type) (n : Nat) where
  objective : Vector α n → Except (Fault α) α
  gradient : Vector α n → Except (Fault α) (Vector α n)
  hessianRow : Option (Vector α n → Fin n → Except (Fault α) (Option (Vector α n))) := none

namespace Problem

variable {α : Type} {n : Nat}

def hasHessian (p : Problem α n) : Bool :=
  p.hessianRow.isSome

def evalObjective (p : Problem α n) (x : Vector α n) : Run α n α :=
  match p.objective x with
  | .ok f => ⟨[.objective x f], .ok f⟩
  | .error e => .fail (.fault e)

/-- Evaluates the gradient. One of the wrong length counts as evaluated. -/
def evalGradient (p : Problem α n) (x : Vector α n) : Run α n (Vector α n) :=
  match p.gradient x with
  | .ok g => ⟨[.gradient x g.toArray], .ok g⟩
  | .error (.gradientLength g) => ⟨[.gradient x g], .error (.fault (.gradientLength g))⟩
  | .error e => .fail (.fault e)

def evalHessianRow (p : Problem α n) (x : Vector α n) (i : Fin n) :
    Run α n (Option (Vector α n)) :=
  match p.hessianRow with
  | none => pure none
  | some row => match row x i with
    | .ok h => ⟨[.hessianRow x i], .ok h⟩
    | .error e => .fail (.fault e)

end Problem

end BoxDescent

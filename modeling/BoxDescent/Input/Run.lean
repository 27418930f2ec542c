import BoxDescent.Input.Box
import BoxDescent.Input.Model

/-!
This module contains runs of the solver on points and boxes of any shape. The size of the problem is only
known once the start has been accepted; an error before that is a run of size zero.
-/

namespace BoxDescent

namespace Input

variable {α : Type} [Scalar α]

abbrev SomeRun (α : Type) := Σ n : Nat, Run α n (Solution α n)

def refused (log : List (Event α 0)) (e : Error α) : SomeRun α := ⟨0, ⟨log, .error e⟩⟩

/-- A point with bounds on both sides, before their shapes are compared. -/
structure Arguments (α : Type) where
  x : Grid α
  lower : Option (Grid α)
  upper : Option (Grid α)

def Arguments.ofTensors (x : Tensor α) (lower upper : Option (Tensor α)) :
    Except (Error α) (Arguments α) :=
  return { x := ← x.grid, lower := ← lower.mapM Tensor.grid, upper := ← upper.mapM Tensor.grid }

def solve (m : Model α) (settings : Settings α) (precision : Precision α) (searchFuel : Nat)
    (a : Arguments α) : SomeRun α :=
  match start a.x a.lower a.upper with
  | .error e => refused [] e
  | .ok s => ⟨s.size, BoxDescent.solve (m.problem s.size) settings precision searchFuel s.bounds s.x⟩

inductive Target (α : Type) where
  | problem (m : Model α) (derivativesBeside : Bool)
  | functions (m : Model α)
  | objectiveAlone

def Target.model : Target α → Except (Refusal α) (Model α)
  | problem m derivativesBeside => if derivativesBeside then .error .derivativesTwice else .ok m
  | functions m => .ok m
  | objectiveAlone => .error .gradientMissing

def minimize (target : Target α) (settings : Settings α) (precision : Precision α) (searchFuel : Nat)
    (a : Arguments α) (policy : Minimize.Policy) : SomeRun α :=
  match target.model with
  | .error r => refused [] (.refusal r)
  | .ok m =>
    if policy.maxRestarts < 0 then refused [] (.refusal .negativeRestarts)
    else match start a.x a.lower a.upper with
      | .error e => refused [.note (.precision precision.epsilon precision.zero)] e
      | .ok s =>
        ⟨s.size, BoxDescent.minimize (m.problem s.size) settings precision searchFuel s.bounds s.x policy⟩

end Input

end BoxDescent

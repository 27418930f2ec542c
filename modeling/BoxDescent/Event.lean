import BoxDescent.Logged
import BoxDescent.Vector
import BoxDescent.Error

/-!
This module contains the log of a run. It records every evaluation of the objective, the gradient and
the Hessian, and notes what the method decides. Evaluation counts and the printed trace are both read
off this log.
-/

namespace BoxDescent

/-- A remark of the method on its progress. Variables are named by their positions. -/
inductive Note (α : Type) where
  -- along a direction
  | searchStarted (f norm maxStep : α)
  | orthogonal
  | zeroDirection
  | fixedAtStart (position : Int) (side : Side) (start : α)
  | stepRange (minStep : α) (maxStep : Option α)
  | noFeasibleStep
  | fixedByStep (position : Int) (bound start : α)
  | trying (trial : Nat) (step : α)
  | notFiniteNearby
  | shrinking (step : α)
  | trialValue (trial : Nat) (f threshold : α)
  | conditionsHold (step : α)
  | extrapolating (step : α)
  | fullStepTaken (step : α)
  | noDecrease
  | bracketing (low high : α)
  | lowEndTaken
  -- over the iterations
  | precision (epsilon zero : α)
  | started (size : Nat) (f : α)
  | iterationStarted (iteration : Nat)
  | displacementConverged (change : α)
  | gradientConverged (iteration : Nat) (test : α)
  | curvatureNegligible (iteration : Nat) (curvature : α)
  | testingRelease
  | multipliers (position : Int) (first second : α)
  | freeing (iteration : Nat) (position : Int)
  | updateSkipped (iteration : Nat)
  | iterationDone (iteration : Nat) (f : α) (fixed : Nat)
  | minimumFound (iterations : Nat)
  | budgetExhausted
  | restarting (restart limit : Nat)

inductive Event (α : Type) (n : Nat) where
  | objective (x : Vector α n) (value : α)
  | gradient (x : Vector α n) (value : Array α)
  | hessianRow (x : Vector α n) (i : Fin n)
  | note (note : Note α)

namespace Event

variable {α : Type} {n : Nat}

def objectiveCount (log : List (Event α n)) : Nat :=
  log.countP fun
    | .objective .. => true
    | _ => false

def gradientCount (log : List (Event α n)) : Nat :=
  log.countP fun
    | .gradient .. => true
    | _ => false

def notes (log : List (Event α n)) : List (Note α) :=
  log.filterMap fun
    | .note m => some m
    | _ => none

end Event

abbrev Run (α : Type) (n : Nat) := Logged (Event α n) (Error α)

def note {α : Type} {n : Nat} (m : Note α) : Run α n Unit :=
  Logged.write (.note m)

end BoxDescent

import BoxDescent.Error
import BoxDescent.Decimal.Layout

/-!
This module contains the sentences that tell a user what went wrong. An `Incident` is a failure as it is
told: its numbers, without the headline that the method puts before them.
-/

namespace BoxDescent

open Decimal (Layout text)

inductive FailureKind where
  | optimization
  | lineSearch
  | ascent
  | infeasibleStep
  | factorization
  | searchDirection
  | activeSet
  | iterationLimit
  deriving DecidableEq

namespace FailureKind

def parent? : FailureKind → Option FailureKind
  | optimization => none
  | ascent | infeasibleStep => some lineSearch
  | _ => some optimization

/-- A kind with all the kinds it belongs to, from the special to the general. -/
def lineage (k : FailureKind) : List FailureKind :=
  match k.parent? with
  | none => [k]
  | some optimization => [k, optimization]
  | some p => [k, p, optimization]

end FailureKind

inductive Incident where
  | optimization
  | lineSearch
  | ascent (slope : Float)
  | infeasibleStep (step maxFeasibleStep objective initial slope : Float)
  | factorization (index : Int) (values : List (String × Float))
  | searchDirection (stage : String) (index : Int) (rhs diagonal : Float)
  | activeSet (index : Int) (value : Float) (lower upper : Option Float)
  | iterationLimit (restarts : Int)

namespace Incident

def kind : Incident → FailureKind
  | optimization => .optimization
  | lineSearch => .lineSearch
  | ascent .. => .ascent
  | infeasibleStep .. => .infeasibleStep
  | factorization .. => .factorization
  | searchDirection .. => .searchDirection
  | activeSet .. => .activeSet
  | iterationLimit .. => .iterationLimit

def number (x : Float) : String := text .plain x

def bound : Option Float → String
  | some b => number b
  | none => "nan"

def namedValue (v : String × Float) : String :=
  v.1 ++ "=" ++ text (.general 6) v.2

def details : Incident → String
  | optimization | lineSearch => ""
  | ascent slope => " (∇f^T d = " ++ number slope ++ " > 0, but should be <= 0)"
  | infeasibleStep step maxFeasibleStep objective initial slope =>
    " (step = " ++ number step ++ ", max feasible step = " ++ number maxFeasibleStep ++ ", f = "
      ++ number objective ++ ", f_old = " ++ number initial ++ ", slope = " ++ number slope ++ ")"
  | factorization index values =>
    " at index " ++ toString index ++ " (" ++ ", ".intercalate (values.map namedValue) ++ ")"
  | searchDirection stage index rhs diagonal =>
    " (" ++ stage ++ " solve, index " ++ toString index ++ ": rhs = " ++ number rhs
      ++ ", diagonal = " ++ number diagonal ++ ")"
  | activeSet index value lower upper =>
    " (x[" ++ toString index ++ "] = " ++ number value ++ ", bounds = [" ++ bound lower ++ ", "
      ++ bound upper ++ "])"
  | iterationLimit restarts => " (" ++ toString restarts ++ " restart(s))"

def sentence (headline : String) (i : Incident) : String :=
  headline ++ i.details

end Incident

def SolveStage.name : SolveStage → String
  | forward => "forward"
  | backward => "backward"

namespace Breakdown

def headline {α : Type} : Breakdown α → String
  | ascent .. => "Search direction was not a descent direction."
  | infeasibleStep .. => "Step length exceeds the largest feasible step."
  | decrease .diagonal .. => "Updated diagonal factor is not finite"
  | decrease .scalar .. => "Running scalar sigma is not finite"
  | direction .forward .. => "L^T * direction is not finite"
  | direction .backward .. => "Direction is not finite"
  | offBounds .. => "Variable in the active set is not on a bound"
  | iterationLimit .. => "Active set method did not converge"

def incident : Breakdown Float → Incident
  | ascent slope => .ascent slope
  | infeasibleStep step maxFeasibleStep objective initial slope =>
    .infeasibleStep step maxFeasibleStep objective initial slope
  | decrease _ index values => .factorization index values
  | direction stage index rhs diagonal => .searchDirection stage.name index rhs diagonal
  | offBounds index value lower upper => .activeSet index value lower upper
  | iterationLimit restarts _ => .iterationLimit restarts

def message (b : Breakdown Float) : String :=
  b.incident.sentence b.headline

end Breakdown

namespace Refusal

def shapeText : List Nat → String
  | [] => "()"
  | [k] => "(" ++ toString k ++ ",)"
  | s => "(" ++ ", ".intercalate (s.map toString) ++ ")"

def sideName : Side → String
  | .lower => "lower"
  | .upper => "upper"

def message : Refusal Float → String
  | systemShape shape rows =>
    "Dimension mismatch: T.shape=" ++ shapeText shape ++ "; expected " ++ shapeText [rows, rows] ++ "."
  | startShape => "x0 must be a 1D NumPy array."
  | boundShape side shape size =>
    "Dimension mismatch: " ++ sideName side ++ " has shape " ++ shapeText shape ++ "; expected "
      ++ shapeText [size] ++ "."
  | boundsCrossed => "lower must not exceed upper."
  | startOutside => "x0 must lie strictly within the bounds."
  | iterationBudget => "max_iterations must be positive."
  | conditionOrder sufficientDecrease curvature =>
    "Must have 0 < sufficient_decrease < curvature < 1; got self.sufficient_decrease="
      ++ Incident.number sufficientDecrease ++ ", self.curvature=" ++ Incident.number curvature ++ "."
  | displacementTolerance => "displacement_tolerance must be positive."
  | maxStep => "max_step must be positive."
  | matrixShape shape => "A must be square; got A.shape=" ++ shapeText shape ++ "."
  | matrixAsymmetric => "A must be symmetric."
  | linearTermShape shape size =>
    "Dimension mismatch: self.b.shape=" ++ shapeText shape ++ "; expected " ++ shapeText [size] ++ "."
  | derivativesTwice => "Specify gradient and hessian_row through the problem, not separately."
  | gradientMissing => "gradient is required when passing an objective function."
  | negativeRestarts => "max_restarts must be non-negative."

end Refusal

end BoxDescent

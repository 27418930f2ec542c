import BoxDescent.Event
import BoxDescent.DerivativeCheck
import BoxDescent.Solver
import BoxDescent.Scalar.Double
import BoxDescent.Report.Failure

/-!
This module contains the trace of a run: the lines in which the remarks of the method are printed, and
the lines about bad derivatives. Times are not part of the log; `<t>` stands in their place.
-/

namespace BoxDescent

open Decimal (Layout text)

namespace Trace

def short (x : Float) : String := text (.general 7) x

def number (x : Float) : String := text .plain x

def counter (k : Nat) : String := Decimal.twoDigits k

def limit : Option Float → String
  | some x => short x
  | none => "inf"

def line : Note Float → String
  | .searchStarted f norm maxStep =>
    "      f_old = " ++ short f ++ ", |d| = " ++ short norm ++ ", max_step=" ++ short maxStep
  | .orthogonal =>
    "      Gradient and direction orthogonal: minimum found with the current fixed variables"
  | .zeroDirection =>
    "      Zero direction for all free variables: minimum found with the current fixed variables"
  | .fixedAtStart i side start =>
    "      Fixing variable " ++ toString i ++ " to " ++ Refusal.sideName side ++ " bound from "
      ++ number start
  | .stepRange minStep maxStep => "      lambda_min=" ++ short minStep ++ ", alpha=" ++ limit maxStep
  | .noFeasibleStep => "      Feasible step is zero; trying again"
  | .fixedByStep i bound start =>
    "      Fixing variable " ++ toString i ++ " to bound " ++ number bound ++ " from "
      ++ number start
  | .trying trial step => "      " ++ counter trial ++ " Trying lmbda=" ++ short step
  | .notFiniteNearby => "      Objective not finite near starting point"
  | .shrinking step => "      Objective not finite; shrinking to lmbda=" ++ short step
  | .trialValue trial f threshold =>
    "      " ++ counter trial ++ " f = " ++ short f ++ ", threshold = " ++ short threshold
  | .conditionsHold step => "      Alpha and beta conditions hold at lmbda=" ++ short step
  | .extrapolating step => "      Extrapolating to lmbda=" ++ short step
  | .fullStepTaken step => "      Alpha condition fails; taking lmbda=" ++ short step
  | .noDecrease => "      Cannot find a step length decreasing the objective"
  | .bracketing low high =>
    "      Searching for beta condition between " ++ short low ++ " and " ++ short high
  | .lowEndTaken => "      Beta condition cannot be satisfied; taking lo"
  | .precision epsilon zero =>
    "  Machine precision is " ++ number epsilon ++ " and zero set to " ++ number zero
  | .started size f =>
    "  Starting active set method with " ++ toString size ++ " variables, f = " ++ short f
  | .iterationStarted iteration => "  " ++ counter iteration ++ " Line search ..."
  | .displacementConverged change => "    Delta x converged: " ++ number change
  | .gradientConverged iteration test =>
    "  " ++ counter iteration ++ " Gradient converged: " ++ number test
  | .curvatureNegligible iteration curvature =>
    "  " ++ counter iteration ++ " dg^T * dx = " ++ number curvature
  | .testingRelease => "    Testing whether any variable can be released ..."
  | .multipliers i first second =>
    "    Variable " ++ toString i ++ ": Lagrange multiplier = " ++ number first ++ " | "
      ++ number second
  | .freeing iteration i => "  " ++ counter iteration ++ " Freeing variable " ++ toString i
  | .updateSkipped iteration =>
    "  " ++ counter iteration ++ " dg^T * dx not positive; skipping update"
  | .iterationDone iteration f fixed =>
    "  " ++ counter iteration ++ " f = " ++ short f ++ ", " ++ toString fixed
      ++ " fixed variable(s); iteration completed in <t> ms"
  | .minimumFound iterations =>
    "  Minimum found after " ++ toString iterations ++ " iterations in <t> ms"
  | .budgetExhausted => "  Cannot find minimum: too many iterations"
  | .restarting restart limit =>
    "Restarting from last iterate (" ++ toString restart ++ "/" ++ toString limit ++ ")"

/-- The trace that a log prints. -/
def ofLog {n : Nat} (log : List (Event Float n)) : List String :=
  (Event.notes log).map line

def derivative (x : Float) : String :=
  if x == 0 then text (.scientific 16) x else number x

def comparison (c : DerivativeCheck.Comparison Float) : String :=
  ": expected " ++ derivative c.supplied ++ ", finite difference " ++ derivative c.difference
    ++ ", relative error " ++ text (.scientific 2) c.error

def ofCheck {m n : Nat} (r : DerivativeCheck.Result Float m n) : List String :=
  let gradient := r.badGradient.map fun i =>
    "  Gradient " ++ toString i.val ++ comparison r.gradient[i]
  let hessian := match r.hessian with
    | none => []
    | some rows => (List.finRange n).flatMap fun i => match rows[i] with
      | none => []
      | some row => (r.badRow rows[i]).map fun j =>
        "  Hessian (" ++ toString i.val ++ ", " ++ toString j.val ++ ")" ++ comparison row[j]
  gradient ++ hessian

def statusText : SolveStatus → String
  | .converged => "Active set method converged to a local minimum."
  | .budgetExhausted => "Maximum number of iterations reached."

end Trace

end BoxDescent

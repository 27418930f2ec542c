import BoxDescent.Settings
import BoxDescent.Release
import BoxDescent.Factor.Update
import BoxDescent.LineSearch.Search

/-!
This module contains the solver: it minimises a problem inside a box by searching along quasi-Newton
directions in the free variables. A variable that reaches a bound is held there. Once the free variables
have converged, held variables whose multipliers are negative are released, and the point is a minimum
if there are none. `Iterate.pass` is one round of this, `run` repeats it, `solve` checks the arguments
before and reads off the result.
-/

namespace BoxDescent

variable {α : Type} [Scalar α] {n : Nat}

inductive SolveStatus where
  | converged
  | budgetExhausted
  deriving DecidableEq

structure Solution (α : Type) (n : Nat) where
  x : Vector α n
  value : α
  status : SolveStatus
  iterations : Nat
  objectiveCount : Nat
  gradientCount : Nat
  multipliers : List (Fin n × α)
  history : List α

namespace Solution

def activeSet (s : Solution α n) : List (Fin n) :=
  s.multipliers.map (·.1)

def converged (s : Solution α n) : Bool :=
  s.status == .converged

def convergencePlot (s : Solution α n) : List (Nat × α) :=
  (List.range s.history.length).zip s.history

end Solution

def Bounds.checkStart (b : Bounds α n) (x : Vector α n) : Except (Refusal α) Unit :=
  if b.crossed then .error .boundsCrossed
  else if (List.finRange n).any fun i => b.reached i x[i] .lower || b.reached i x[i] .upper then
    .error .startOutside
  else .ok ()

namespace Solver

structure Task (α : Type) (n : Nat) where
  problem : Problem α n
  settings : Settings α
  precision : Precision α
  maxNorm : α
  -- How often one line search may evaluate the objective.
  searchFuel : Nat

structure Iterate (α : Type) (n : Nat) where
  x : Vector α n
  value : α
  grad : Vector α n
  factor : Factor α n
  direction : Vector α n
  activeSet : ActiveSet α n
  toFree : Option (List (Fin n))
  iterations : Nat
  history : List α

def multipliers (a : ActiveSet α n) (x grad : Vector α n) :
    Except (Error α) (List (Fin n × α)) :=
  (masked a.fixed).mapM fun i => do
    let m ← a.multiplier x grad i
    return (i, m)

def Iterate.solution (s : Iterate α n) (status : SolveStatus) : Except (Error α) (Solution α n) := do
  let multipliers ← multipliers s.activeSet s.x s.grad
  return {
    x := s.x, value := s.value, status, iterations := s.iterations
    objectiveCount := 0, gradientCount := 0, multipliers, history := s.history }

def displacement (x start : Vector α n) : Except (Error α) α :=
  match maximum? fun i : Fin n =>
      Scalar.abs (x[i] - start[i]) / Scalar.maximum (Scalar.abs x[i]) 1 with
  | some change => .ok change
  | none => .error (.fault .mismatch)

def displacementConverged (p : Precision α) (x start : Vector α n) : Run α n Bool := do
  let change ← Logged.ofExcept (displacement x start)
  if change < p.zero then
    note (.displacementConverged change)
    return true
  else return false

def gradientTest (grad direction : Vector α n) (value : α) (free : List (Fin n)) : α :=
  maximumOver free fun i =>
    Scalar.abs grad[i] * Scalar.maximum (Scalar.abs direction[i]) 1
      / Scalar.pickMax (Scalar.abs value) 1

def difference (u v : Vector α n) : Vector α n :=
  Vector.ofFn fun i => u[i] - v[i]

structure Progress (α : Type) (n : Nat) where
  displacement : Vector α n
  -- Zero on the held variables.
  gradChange : Vector α n
  curvature : α
  heldCurvature : α
  gradientTest : α

def Iterate.progress (s : Iterate α n) (r : SearchResult α n) (grad : Vector α n) : Progress α n :=
  let fixed := r.activeSet.fixed
  let displacement := difference r.x s.x
  let gradChange := Vector.ofFn fun i => if fixed[i] then 0 else grad[i] - s.grad[i]
  { displacement, gradChange
    curvature := dotOver (unmasked fixed) displacement gradChange
    heldCurvature := dotOver (masked fixed) displacement (difference grad s.grad)
    gradientTest := gradientTest grad r.direction r.value (unmasked fixed) }

namespace Progress

def totalCurvature (p : Progress α n) : α :=
  p.curvature + p.heldCurvature

def converged (p : Progress α n) (zero : α) : Bool :=
  p.gradientTest < zero || Scalar.abs p.totalCurvature < zero

def isCurved (p : Progress α n) (zero : α) (free : List (Fin n)) : Bool :=
  !decide (p.curvature <
    Scalar.pickMax (zero * normOver free p.displacement * normOver free p.gradChange) zero)

def report (p : Progress α n) (zero : α) (iteration : Nat) : Run α n Unit := do
  if p.gradientTest < zero then note (.gradientConverged iteration p.gradientTest)
  if Scalar.abs p.totalCurvature < zero then
    note (.curvatureNegligible iteration p.totalCurvature)

end Progress

def updateFactor (zero : α) (f : Factor α n) (fixed : Vector Bool n) (gradChange : Vector α n)
    (curvature : α) (oldGrad : Vector α n) (slope : α) : Except (Error α) (Factor α n) := do
  if Scalar.equal slope 0 then .error (.fault .zeroSlope)
  else
    let f ← f.update gradChange (1 / curvature) fixed zero
    f.update oldGrad (1 / slope) fixed zero

def Iterate.search (t : Task α n) (s : Iterate α n) : Run α n (SearchResult α n) :=
  LineSearch.search t.searchFuel t.problem (t.settings.searchParameters t.precision) s.activeSet s.x
    s.value s.grad s.direction t.maxNorm

def Iterate.move (s : Iterate α n) (r : SearchResult α n) (grad : Vector α n) : Iterate α n :=
  { s with
    x := r.x, value := r.value, grad, activeSet := r.activeSet
    iterations := s.iterations + 1, history := s.history ++ [r.value] }

def Iterate.redirect (s : Iterate α n) : Run α n (Iterate α n) := do
  let direction ← Logged.ofExcept (s.factor.direction s.grad s.activeSet.fixed)
  note (.iterationDone s.iterations s.value s.activeSet.size)
  return { s with direction }

def Iterate.release (s : Iterate α n) (toFree : List (Fin n)) : Run α n (Iterate α n) :=
  toFree.foldlM (fun s i => do
    note (.freeing s.iterations i.val)
    return { s with activeSet := s.activeSet.release i s.x[i], factor := s.factor.reset i 1 })
    { s with toFree := some toFree }

def Iterate.afterZeroStep (t : Task α n) (s : Iterate α n) (r : SearchResult α n) :
    Run α n (Iterate α n) := do
  let grad ← t.problem.evalGradient r.x
  let factor := s.factor.resetAll r.activeSet.indices 0
  Iterate.redirect { s with x := r.x, value := r.value, grad, factor, activeSet := r.activeSet }

def Iterate.conclude (t : Task α n) (s : Iterate α n) (curved : Bool) :
    Run α n (Iterate α n ⊕ Solution α n) := do
  let step ← Logged.ofExcept (s.factor.direction s.grad s.activeSet.fixed)
  let decision ← Release.select t.problem s.activeSet s.x s.grad step s.toFree
  let (toFree, released) ← Logged.ofExcept decision.verdict
  let s := { s with activeSet := { s.activeSet with indices := decision.indices } }
  if released then
    let s ← s.release toFree
    if !curved then note (.updateSkipped s.iterations)
    let s ← s.redirect
    return .inl s
  else
    let value ← t.problem.evalObjective s.x
    note (.minimumFound s.iterations)
    let solution ← Logged.ofExcept ({ s with value }.solution .converged)
    return .inr solution

def Iterate.afterStep (t : Task α n) (s : Iterate α n) (r : SearchResult α n) :
    Run α n (Iterate α n ⊕ Solution α n) := do
  let zero := t.precision.zero
  let displaced ← displacementConverged t.precision r.x s.x
  let grad ← t.problem.evalGradient r.x
  let p := s.progress r grad
  let moved := s.move r grad
  p.report zero moved.iterations
  let curved := p.isCurved zero r.activeSet.free
  if displaced || p.converged zero then moved.conclude t curved
  else if curved then
    let factor ← Logged.ofExcept (updateFactor zero s.factor r.activeSet.fixed p.gradChange
      p.curvature s.grad r.slope)
    let next ← Iterate.redirect { moved with factor }
    return .inl next
  else
    note (.updateSkipped moved.iterations)
    let next ← moved.redirect
    return .inl next

def Iterate.pass (t : Task α n) (s : Iterate α n) : Run α n (Iterate α n ⊕ Solution α n) := do
  note (.iterationStarted (s.iterations + 1))
  let r ← s.search t
  if r.status = .zeroStep then
    let next ← s.afterZeroStep t r
    return .inl next
  else s.afterStep t r

def run (t : Task α n) (fuel : Nat) (s : Iterate α n) : Run α n (Solution α n) :=
  if s.iterations < t.settings.budget then
    match fuel with
    | 0 => .fail .outOfFuel
    | fuel + 1 => do
      match ← s.pass t with
      | .inl s => run t fuel s
      | .inr solution => return solution
  else do
    note .budgetExhausted
    Logged.ofExcept (s.solution .budgetExhausted)

def start (b : Bounds α n) (x : Vector α n) (value : α) (grad : Vector α n) : Iterate α n :=
  { x, value, grad
    factor := .identity
    direction := Vector.ofFn fun i => -grad[i]
    activeSet := .ofBounds b
    toFree := none
    iterations := 0
    history := [value] }

def maxNorm {m : Nat} (settings : Settings α) (n : Nat) (grad : Vector α m) : α :=
  settings.maxStep * Scalar.pickMax (norm grad) (Scalar.ofCount n)

def startGradient (problem : Problem α n) (settings : Settings α) (x : Vector α n) (value : α) :
    Run α n (Vector α n) := do
  match ← (problem.evalGradient x).attempt with
  | .ok grad =>
    note (.started n value)
    return grad
  | .error (.fault (.gradientLength g)) =>
    note (.started n value)
    note (.iterationStarted 1)
    if n = 0 then
      note (.searchStarted value 0 (maxNorm settings n g.toVector))
      note .orthogonal
      Logged.fail (.fault .mismatch)
    else Logged.fail (.fault (.gradientLength g))
  | .error e => Logged.fail e

end Solver

/-- Minimises a problem inside a box, from a start strictly inside of it. A line search may evaluate the
objective at most `searchFuel` times; `n + 1` rounds an iteration are always enough. -/
def solve (problem : Problem α n) (settings : Settings α) (precision : Precision α)
    (searchFuel : Nat) (b : Bounds α n) (x : Vector α n) : Run α n (Solution α n) := do
  Logged.ofExcept ((b.checkStart x).mapError .refusal)
  let counted := Logged.listen do
    let value ← problem.evalObjective x
    let grad ← Solver.startGradient problem settings x value
    let task : Solver.Task α n :=
      { problem, settings, precision, searchFuel, maxNorm := Solver.maxNorm settings n grad }
    Solver.run task ((n + 1) * settings.budget) (Solver.start b x value grad)
  let (solution, log) ← counted
  return { solution with
    objectiveCount := Event.objectiveCount log
    gradientCount := Event.gradientCount log }

end BoxDescent

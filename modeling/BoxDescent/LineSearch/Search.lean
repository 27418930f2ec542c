import BoxDescent.LineSearch.Stage

/-!
This module contains the line search itself: from a point with its gradient along a direction to a new
point, together with the variables that reached a bound. The stages of `BoxDescent.LineSearch.Stage` are
only entered if the direction descends and the largest feasible step is not zero.
-/

namespace BoxDescent

inductive SearchStatus where
  | accepted
  | zeroStep
  | stationary
  | noProgress
  deriving DecidableEq

structure SearchResult (α : Type) (n : Nat) where
  x : Vector α n
  value : α
  step : α
  slope : α
  status : SearchStatus
  newlyFixed : List (Fin n)
  direction : Vector α n
  activeSet : ActiveSet α n

def SearchResult.stepTaken {α : Type} {n : Nat} (r : SearchResult α n) : Bool :=
  r.status == .accepted

namespace LineSearch

variable {α : Type} [Scalar α] {n : Nat}

def Ray.fixBlocking (r : Ray α n) (step : α) (x : Vector α n) :
    Run α n (Vector α n × ActiveSet α n × List (Fin n)) :=
  match r.blocking with
  | none => return (x, r.activeSet, r.newlyFixed)
  | some i =>
    if below step r.reach then return (x, r.activeSet, r.newlyFixed)
    else do
      let side : Side := if r.direction[i] > 0 then .upper else .lower
      let bound := (r.activeSet.working.bound i side).getD Scalar.undefined
      note (.fixedByStep i.val bound r.origin[i])
      return (x.set i bound i.isLt, r.activeSet.fix i side, r.newlyFixed ++ [i])

def Ray.finish (r : Ray α n) : Ending α → Run α n (SearchResult α n)
  | .noProgress => return {
      x := r.origin, value := r.value, step := 0, slope := r.slope, status := .noProgress
      newlyFixed := r.newlyFixed, direction := r.direction, activeSet := r.activeSet }
  | .accepted step value => do
    let (x, activeSet, newlyFixed) ← r.fixBlocking step (r.point step)
    return {
      x, value, step, slope := r.slope, status := .accepted
      newlyFixed, direction := r.direction, activeSet }

def relativeChange (direction x : Vector α n) (free : List (Fin n)) : α :=
  maximumOver free fun i => Scalar.abs direction[i] / Scalar.maximum (Scalar.abs x[i]) 1

structure Heading (α : Type) (n : Nat) where
  direction : Vector α n
  maxStep : Option α
  slope : α

def orient (zero : α) (fixed : Vector Bool n) (f : α) (grad direction : Vector α n) (maxNorm : α) :
    Run α n (Heading α n × Bool) := do
  let scaled := scale direction fixed maxNorm
  note (.searchStarted f scaled.norm maxNorm)
  let slope := dotOver (unmasked fixed) grad scaled.direction
  let heading := { direction := scaled.direction, maxStep := scaled.maxStep, slope }
  if Scalar.abs slope ≤ zero then
    note .orthogonal
    return (heading, false)
  else if slope > zero then Logged.fail (.breakdown (.ascent slope))
  else return (heading, true)

namespace Heading

def stay (h : Heading α n) (a : ActiveSet α n) (x : Vector α n) (f : α) : SearchResult α n :=
  { x, value := f, step := 0, slope := h.slope, status := .stationary, newlyFixed := []
    direction := h.direction, activeSet := a }

def minStep? (h : Heading α n) (parameters : Parameters α) (fixed : Vector Bool n) (x : Vector α n) :
    Run α n (Option α) := do
  let change := relativeChange h.direction x (unmasked fixed)
  if change ≤ parameters.precision.zero then
    note .zeroDirection
    return none
  else return some (parameters.displacementTolerance / change)

def ray (h : Heading α n) (problem : Problem α n) (parameters : Parameters α) (fixed : Vector Bool n)
    (x : Vector α n) (f minStep : α) (s : Reach α n) : Run α n (Ray α n ⊕ SearchResult α n) := do
  note (.stepRange minStep s.step)
  if s.step.any (· ≤ parameters.precision.zero) then
    note .noFeasibleStep
    return .inr { h.stay s.activeSet s.x f with status := .zeroStep, newlyFixed := s.newlyFixed }
  else
    return .inl {
      problem, parameters, origin := x, value := f, direction := h.direction, fixed
      slope := h.slope, minStep, reach := s.step, blocking := s.blocking, maxStep := h.maxStep
      activeSet := s.activeSet, newlyFixed := s.newlyFixed }

end Heading

def aim (problem : Problem α n) (parameters : Parameters α) (a : ActiveSet α n) (x : Vector α n) (f : α)
    (grad direction : Vector α n) (maxNorm : α) : Run α n (Ray α n ⊕ SearchResult α n) := do
  let (heading, descends) ← orient parameters.precision.zero a.fixed f grad direction maxNorm
  if !descends then return .inr (heading.stay a x f)
  else match ← heading.minStep? parameters a.fixed x with
    | none => return .inr (heading.stay a x f)
    | some minStep =>
      let s ← reach parameters.precision heading.direction x a a.free
      heading.ray problem parameters a.fixed x f minStep s

def Ray.search (r : Ray α n) (fuel : Nat) : Run α n (SearchResult α n) := do
  let trial := firstTrial r
  note (.trying 0 trial.step)
  let ending ← runStages r fuel (.trial trial)
  r.finish ending

/-- Searches from `x`, where the objective is `f`, along a direction. The objective is evaluated at most
`fuel` times. -/
def search (fuel : Nat) (problem : Problem α n) (parameters : Parameters α) (a : ActiveSet α n)
    (x : Vector α n) (f : α) (grad direction : Vector α n) (maxNorm : α) :
    Run α n (SearchResult α n) := do
  match ← aim problem parameters a x f grad direction maxNorm with
  | .inl ray => ray.search fuel
  | .inr halted => return halted

end LineSearch

end BoxDescent

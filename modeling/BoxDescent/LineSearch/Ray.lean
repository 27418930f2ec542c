import BoxDescent.Problem.Basic
import BoxDescent.ActiveSet

/-!
This module contains the ray that a line search tries steps on, and how far one can go along it: the
direction is scaled down to the largest allowed norm, and the bounds that the free variables head into
limit the step.
-/

namespace BoxDescent

namespace LineSearch

structure Parameters (α : Type) where
  sufficientDecrease : α
  curvature : α
  displacementTolerance : α
  precision : Precision α

/-- Everything that stays the same while steps are tried. -/
structure Ray (α : Type) (n : Nat) where
  problem : Problem α n
  parameters : Parameters α
  origin : Vector α n
  value : α
  direction : Vector α n
  fixed : Vector Bool n
  slope : α
  minStep : α
  -- The longest feasible step and the longest allowed one are missing where nothing limits them.
  reach : Option α
  blocking : Option (Fin n)
  maxStep : Option α
  activeSet : ActiveSet α n
  newlyFixed : List (Fin n)

def capped {α : Type} [Scalar α] (step : α) : Option α → α
  | none => step
  | some limit => Scalar.pickMin step limit

def below {α : Type} [Scalar α] (step : α) : Option α → Bool
  | none => Scalar.isFinite step
  | some limit => step < limit

namespace Ray

variable {α : Type} [Scalar α] {n : Nat}

def free (r : Ray α n) : List (Fin n) :=
  unmasked r.fixed

def point (r : Ray α n) (step : α) : Vector α n :=
  Vector.ofFn fun i =>
    if r.fixed[i] then r.origin[i]
    else r.activeSet.working.clip i (r.origin[i] + step * r.direction[i])

def threshold (r : Ray α n) (step : α) : α :=
  r.value + r.parameters.sufficientDecrease * step * r.slope

def curvatureSlope (r : Ray α n) : α :=
  r.parameters.curvature * r.slope

def valueAt (r : Ray α n) (step : α) : Run α n α :=
  r.problem.evalObjective (r.point step)

def slopeAt (r : Ray α n) (step : α) : Run α n α := do
  let g ← r.problem.evalGradient (r.point step)
  return dotOver r.free g r.direction

def checkFeasible (r : Ray α n) (step f : α) : Run α n Unit :=
  match r.reach with
  | none => pure ()
  | some reach =>
    if step > reach then
      Logged.fail (.breakdown (.infeasibleStep step reach f r.value r.slope))
    else pure ()

end Ray

section Scaling

variable {α : Type} [Scalar α] {n : Nat}

structure Scaled (α : Type) (n : Nat) where
  direction : Vector α n
  norm : α
  maxStep : Option α

def scale (direction : Vector α n) (fixed : Vector Bool n) (maxNorm : α) : Scaled α n :=
  let norm := normOver (unmasked fixed) direction
  if norm > maxNorm then
    let direction := Vector.ofFn fun i : Fin n =>
      if fixed[i] then direction[i] else direction[i] * (maxNorm / norm)
    { direction, norm, maxStep := some 1 }
  else if norm > 0 then { direction, norm, maxStep := some (maxNorm / norm) }
  else { direction, norm, maxStep := none }

end Scaling

section Reach

variable {α : Type} [Scalar α] {n : Nat}

structure Reach (α : Type) (n : Nat) where
  step : Option α
  blocking : Option (Fin n)
  x : Vector α n
  activeSet : ActiveSet α n
  newlyFixed : List (Fin n)

def heading (working : Bounds α n) (epsilon d : α) (i : Fin n) : Option (Side × α) :=
  match if d < -epsilon then working.bound i .lower else none with
  | some l => some (.lower, l)
  | none => match if d > epsilon then working.bound i .upper else none with
    | some u => some (.upper, u)
    | none => none

def Reach.look (p : Precision α) (direction : Vector α n) (s : Reach α n) (i : Fin n) :
    Run α n (Reach α n) :=
  match heading s.activeSet.working p.epsilon direction[i] i with
  | none => pure s
  | some (side, bound) =>
    let ratio := (bound - s.x[i]) / direction[i]
    if ratio ≤ p.zero then do
      note (.fixedAtStart i.val side s.x[i])
      return { s with
        step := some 0
        x := s.x.set i bound i.isLt
        activeSet := s.activeSet.fix i side
        newlyFixed := s.newlyFixed ++ [i] }
    else if below ratio s.step then return { s with step := some ratio, blocking := some i }
    else return s

def reach (p : Precision α) (direction x : Vector α n) (a : ActiveSet α n) (is : List (Fin n)) :
    Run α n (Reach α n) :=
  is.foldlM (Reach.look p direction)
    { step := none, blocking := none, x, activeSet := a, newlyFixed := [] }

end Reach

end LineSearch

end BoxDescent

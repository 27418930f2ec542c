import BoxDescent.Solver

/-!
This module contains the front end of the solver: a run whose iterations ran out is started again from
its last iterate, which is first moved off the bounds it sits on.
-/

namespace BoxDescent

variable {α : Type} [Scalar α] {n : Nat}

def halfWidth : Option α → Option α → Option α
  | some l, some u => some (0.5 * (u - l))
  | _, _ => none

def inset (zero bound : α) (half : Option α) : α :=
  let distance := zero * Scalar.maximum (Scalar.abs bound) 1
  match half with
  | some half => Scalar.minimum distance half
  | none => distance

def Bounds.nudgeInside (b : Bounds α n) (zero : α) (i : Fin n) (x : α) : α :=
  let half := halfWidth (b.bound i .lower) (b.bound i .upper)
  let x := match b.bound i .lower with
    | some l => if x ≤ l then l + inset zero l half else x
    | none => x
  match b.bound i .upper with
  | some u => if x ≥ u then u - inset zero u half else x
  | none => x

def nudgeInside (b : Bounds α n) (zero : α) (x : Vector α n) : Vector α n :=
  Vector.ofFn fun i => b.nudgeInside zero i x[i]

namespace Minimize

structure Policy where
  maxRestarts : Int := 0
  raiseOnFailure : Bool := false

def restart (problem : Problem α n) (settings : Settings α) (precision : Precision α)
    (searchFuel : Nat) (b : Bounds α n) (limit : Nat) (last : Solution α n) (restarts : Nat) :
    Nat → Run α n (Solution α n × Nat)
  | 0 => return (last, restarts)
  | remaining + 1 =>
    if last.converged then return (last, restarts)
    else do
      note (.restarting (restarts + 1) limit)
      let next ← solve problem settings precision searchFuel b (nudgeInside b precision.zero last.x)
      restart problem settings precision searchFuel b limit next (restarts + 1) remaining

end Minimize

/-- Minimises a problem inside a box, with restarts. The counts of the solution are those of the last run
of the solver. -/
def minimize (problem : Problem α n) (settings : Settings α) (precision : Precision α)
    (searchFuel : Nat) (b : Bounds α n) (x : Vector α n) (policy : Minimize.Policy) :
    Run α n (Solution α n) := do
  if policy.maxRestarts < 0 then
    Logged.fail (.refusal .negativeRestarts)
  note (.precision precision.epsilon precision.zero)
  let first ← solve problem settings precision searchFuel b x
  let limit := policy.maxRestarts.toNat
  let (last, restarts) ←
    Minimize.restart problem settings precision searchFuel b limit first 0 limit
  if !last.converged && policy.raiseOnFailure then
    Logged.fail (.breakdown (.iterationLimit restarts last.x.toArray))
  return last

end BoxDescent

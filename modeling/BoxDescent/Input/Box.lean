import BoxDescent.Input.Tensor
import BoxDescent.Minimize

/-!
This module contains the boxes and points that callers hand in. A bound that is infinite or undefined
means that the side is missing. A run needs vectors of one size; the operations on single points take
grids of any shapes that can be combined.
-/

namespace BoxDescent

namespace Input

variable {α : Type} [Scalar α]

def finiteBound (b : α) : Option α :=
  if Scalar.isFinite b then some b else none

def definedBound (b : α) : Option α :=
  if Scalar.isUndefined b then none else some b

structure Start (α : Type) where
  size : Nat
  bounds : Bounds α size
  x : Vector α size

/-- The bounds on one side, which have to fit a point of size `n`. -/
def sideBounds (n : Nat) (side : Side) : Option (Grid α) → Except (Error α) (Vector (Option α) n)
  | none => .ok (Vector.replicate n none)
  | some b => match b.vector? n with
    | none => .error (.refusal (.boundShape side b.shape n))
    | some b => .ok (b.map finiteBound)

def start (x : Grid α) (lower upper : Option (Grid α)) : Except (Error α) (Start α) :=
  if x.rank ≠ 1 then .error (.refusal .startShape)
  else do
    let x := x.entries
    let lower ← sideBounds x.size .lower lower
    let upper ← sideBounds x.size .upper upper
    return { size := x.size, bounds := { lower, upper }, x := x.toVector }

def asBound (b : Option (Grid α)) (n : Int) : Except (Fault α) (Grid (Option α)) :=
  match b with
  | some b => .ok (b.map finiteBound)
  | none => if n < 0 then .error .mismatch else .ok (.ofArray (Array.replicate n.toNat none))

def nudgeOff (side : Side) (zero : α) (half bound : Grid (Option α)) (x : Grid α) :
    Except (Fault α) (Grid α) := do
  let reached := fun (x : α) (b : Option α) => match b with
    | none => false
    | some b => match side with
      | .lower => x ≤ b
      | .upper => x ≥ b
  let on ← Grid.combine reached x bound
  let insets ← Grid.combine (fun b half => b.map (inset zero · half)) bound half
  let moved := fun (b inset : Option α) => match b, inset with
    | some b, some d => match side with
      | .lower => b + d
      | .upper => b - d
    | _, _ => Scalar.undefined
  x.assign on (← Grid.combine moved (← bound.select on) (← insets.select on))

def nudge (x : Grid α) (lower upper : Option (Grid α)) (zero : α) : Except (Fault α) (Grid α) := do
  match x.shape with
  | [] => .error .outOfRange
  | n :: _ =>
    let lower ← asBound lower n
    let upper ← asBound upper n
    match x.vector? n, lower.vector? n, upper.vector? n with
    | some x, some lower, some upper => return .ofArray (nudgeInside { lower, upper } zero x).toArray
    | _, _, _ =>
      let half ← Grid.combine halfWidth lower upper
      nudgeOff .upper zero half upper (← nudgeOff .lower zero half lower x)

def displaced (p : Precision α) (x start : Grid α) : Except (Fault α) Bool := do
  let change ← Grid.combine (fun x y => Scalar.abs (x - y)) x start
  let relative ← Grid.combine (· / ·) change (x.map fun x => Scalar.maximum (Scalar.abs x) 1)
  match maximum? fun i : Fin relative.entries.size => relative.entries.toVector[i] with
  | some change => return change < p.zero
  | none => .error .mismatch

end Input

end BoxDescent

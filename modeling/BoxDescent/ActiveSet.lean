import BoxDescent.Vector
import BoxDescent.Error

/-!
This module contains the bookkeeping for variables that are held at a side of their box. Besides all
bounds an active set carries the bounds still in force: a bound is taken out of them once its
variable sits on it, so that it no longer limits a step, and is put back when the variable is released.
-/

namespace BoxDescent

structure Bounds (α : Type) (n : Nat) where
  lower : Vector (Option α) n
  upper : Vector (Option α) n

namespace Bounds

variable {α : Type} {n : Nat}

def unbounded : Bounds α n :=
  { lower := Vector.replicate n none, upper := Vector.replicate n none }

def bound (b : Bounds α n) (i : Fin n) : Side → Option α
  | .lower => b.lower[i]
  | .upper => b.upper[i]

def set (b : Bounds α n) (i : Fin n) (side : Side) (value : Option α) : Bounds α n :=
  match side with
  | .lower => { b with lower := b.lower.set i value i.isLt }
  | .upper => { b with upper := b.upper.set i value i.isLt }

theorem bound_set (b : Bounds α n) (i j : Fin n) (s t : Side) (value : Option α) :
    (b.set i s value).bound j t = if i = j ∧ s = t then value else b.bound j t := by
  cases s <;> cases t <;> simp [set, bound, getElem_set]

variable [Scalar α]

def clip (b : Bounds α n) (i : Fin n) (x : α) : α :=
  let x := match b.bound i .lower with
    | some l => if x < l then l else x
    | none => x
  match b.bound i .upper with
  | some u => if x > u then u else x
  | none => x

def crossed (b : Bounds α n) : Bool :=
  (List.finRange n).any fun i =>
    match b.bound i .lower, b.bound i .upper with
    | some l, some u => l > u
    | _, _ => false

def reached (b : Bounds α n) (i : Fin n) (x : α) : Side → Bool
  | .lower => match b.bound i .lower with
    | some l => x ≤ l
    | none => false
  | .upper => match b.bound i .upper with
    | some u => x ≥ u
    | none => false

end Bounds

/-- The variables held at a bound, in the order in which they were fixed. -/
structure ActiveSet (α : Type) (n : Nat) where
  bounds : Bounds α n
  working : Bounds α n
  fixed : Vector Bool n
  indices : List (Fin n)

namespace ActiveSet

variable {α : Type} {n : Nat}

def ofBounds (b : Bounds α n) : ActiveSet α n :=
  { bounds := b, working := b, fixed := Vector.replicate n false, indices := [] }

def free (a : ActiveSet α n) : List (Fin n) :=
  unmasked a.fixed

def size (a : ActiveSet α n) : Nat :=
  a.indices.length

def fix (a : ActiveSet α n) (i : Fin n) (side : Side) : ActiveSet α n :=
  { a with
    working := a.working.set i side none
    fixed := a.fixed.set i true i.isLt
    indices := a.indices ++ [i] }

variable [Scalar α]

def sideOf (a : ActiveSet α n) (i : Fin n) (x : α) : Side :=
  if a.bounds.reached i x .lower then .lower else .upper

def release (a : ActiveSet α n) (i : Fin n) (x : α) : ActiveSet α n :=
  let side := a.sideOf i x
  { a with
    working := a.working.set i side (a.bounds.bound i side)
    fixed := a.fixed.set i false i.isLt }

def clip (a : ActiveSet α n) (x : Vector α n) (is : List (Fin n)) : Vector α n :=
  Vector.ofFn fun i => if i ∈ is then a.working.clip i x[i] else x[i]

def multiplier (a : ActiveSet α n) (x grad : Vector α n) (i : Fin n) : Except (Error α) α :=
  if a.bounds.reached i x[i] .upper then .ok (-grad[i])
  else if a.bounds.reached i x[i] .lower then .ok grad[i]
  else .error (.breakdown (.offBounds (i : Nat) x[i] (a.bounds.bound i .lower) (a.bounds.bound i .upper)))

end ActiveSet

end BoxDescent

import BoxDescent.Input.Tensor
import BoxDescent.ActiveSet

/-!
This module contains active sets as callers handle them: the bounds are grids whose shapes nobody has
compared, and variables are named by position. The list of held variables shows each one as the caller
wrote it. `Held.active?` is the active set that is meant.
-/

namespace BoxDescent

structure Held (α : Type) where
  lower : Grid (Option α)
  upper : Grid (Option α)
  workingLower : Grid (Option α)
  workingUpper : Grid (Option α)
  fixed : Array Bool
  indices : List Int

namespace Held

variable {α : Type}

def ofBounds (lower upper : Grid (Option α)) : Except (Error α) (Held α) :=
  match lower.shape with
  | [] => .error (.fault .outOfRange)
  | n :: _ => .ok {
      lower, upper, workingLower := lower, workingUpper := upper
      fixed := Array.replicate n false, indices := [] }

def size (h : Held α) : Nat := h.fixed.size

def free (h : Held α) : Array Bool := h.fixed.map (!·)

def bounds (h : Held α) : Side → Grid (Option α)
  | .lower => h.lower
  | .upper => h.upper

def working (h : Held α) : Side → Grid (Option α)
  | .lower => h.workingLower
  | .upper => h.workingUpper

def setWorking (h : Held α) (side : Side) (g : Grid (Option α)) : Held α :=
  match side with
  | .lower => { h with workingLower := g }
  | .upper => { h with workingUpper := g }

/-- The active set in `n` variables. There may be too few upper bounds or too many. -/
def active? (n : Nat) (h : Held α) : Option (ActiveSet α n) :=
  let upper := fun g : Grid (Option α) => Vector.ofFn fun i : Fin n => g.entries.getD i none
  if h.upper.rank ≠ 1 then none
  else return {
    bounds := { lower := ← h.lower.vector? n, upper := upper h.upper }
    working := { lower := ← h.workingLower.vector? n, upper := upper h.workingUpper }
    fixed := ← sized? n h.fixed
    indices := h.indices.filterMap (place? n) }

def withActive {n : Nat} (h : Held α) (a : ActiveSet α n) (newlyFixed : List (Fin n)) : Held α :=
  let replace := fun (v : Vector (Option α) n) (i : List Nat) (b : Option α) =>
    (i.head?.bind fun i => v[i]?).getD b
  { h with
    workingLower := h.workingLower.mapAt (replace a.working.lower)
    workingUpper := h.workingUpper.mapAt (replace a.working.upper)
    fixed := a.fixed.toArray
    indices := h.indices ++ newlyFixed.map fun i => (i.val : Int) }

def fix (h : Held α) (position : Int) (side : Side) : Held α × Except (Error α) (Grid (Option α)) :=
  let working := h.working side
  match working.part position, working.fillPart position none with
  | .ok bound, .ok cleared =>
    let h := h.setWorking side cleared
    match place? h.fixed.size position with
    | none => (h, .error (.fault .outOfRange))
    | some i => ({ h with fixed := h.fixed.set i true i.isLt, indices := h.indices ++ [position] },
        .ok (if working.rank = 1 then bound else bound.map fun _ => none))
  | .error e, _ | _, .error e => (h, .error (.fault e))

def fixAll (h : Held α) : List (Int × Side) → Held α × Except (Error α) Unit
  | [] => (h, .ok ())
  | (position, side) :: rest => match h.fix position side with
    | (h, .ok _) => h.fixAll rest
    | (h, .error e) => (h, .error e)

def pop (h : Held α) (place : Int) : Held α × Except (Error α) Int :=
  match place? h.indices.length place with
  | none => (h, .error (.fault .outOfRange))
  | some k => ({ h with indices := h.indices.eraseIdx k }, .ok h.indices[k])

variable [Scalar α]

def sideOf (h : Held α) (position : Int) (x : Grid α) : Except (Fault α) Side := do
  let reached := fun (x : α) (l : Option α) => l.any (x ≤ ·)
  let reached ← Grid.combine reached (← x.part position) (← h.lower.part position)
  return if ← reached.single then .lower else .upper

def release (h : Held α) (position : Int) (x : Grid α) : Held α × Except (Error α) Unit :=
  match place? h.fixed.size position with
  | none => (h, .error (.fault .outOfRange))
  | some i =>
    let h := { h with fixed := h.fixed.set i false i.isLt }
    match h.sideOf position x with
    | .error e => (h, .error (.fault e))
    | .ok side => match (h.working side).copyPart (h.bounds side) position with
      | .error e => (h, .error (.fault e))
      | .ok restored => (h.setWorking side restored, .ok ())

def releaseAll (h : Held α) (x : Grid α) : List Int → Held α × Except (Error α) Unit
  | [] => (h, .ok ())
  | position :: rest => match h.release position x with
    | (h, .ok ()) => h.releaseAll x rest
    | (h, .error e) => (h, .error e)

def clipSide (h : Held α) (side : Side) (mask : Grid Bool) (x : Grid α) : Except (Fault α) (Grid α) := do
  let bounds := h.working side
  let crossed := fun (x : α) (b : Option α) => match b with
    | none => false
    | some b => match side with
      | .lower => x < b
      | .upper => x > b
  let present ← Grid.combine (fun free (b : Option α) => free && b.isSome) mask bounds
  let on ← Grid.combine (· && ·) present (← Grid.combine crossed x bounds)
  x.assign on ((← bounds.select on).map (·.getD Scalar.undefined))

def clip (h : Held α) (x : Grid α) (mask : Option (Array Bool)) : Except (Fault α) (Grid α) := do
  let mask := Grid.ofArray (mask.getD h.free)
  h.clipSide .upper mask (← h.clipSide .lower mask x)

def multiplier (h : Held α) (x grad : Grid α) (position : Int) : Except (Error α) α := do
  let value ← (x.entry position).mapError Error.fault
  let upper ← (h.upper.entry position).mapError Error.fault
  if upper.any (value ≥ ·) then return -(← (grad.entry position).mapError Error.fault)
  else
    let lower ← (h.lower.entry position).mapError Error.fault
    if lower.any (value ≤ ·) then (grad.entry position).mapError Error.fault
    else .error (.breakdown (.offBounds position value lower upper))

end Held

end BoxDescent

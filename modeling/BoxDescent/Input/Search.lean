import BoxDescent.Input.Held
import BoxDescent.LineSearch.Search

/-!
This module contains line searches on data whose lengths nobody has compared. If they fit, the search is
that of `BoxDescent.LineSearch`. Otherwise it goes on until the misfit shows, and it never shows if the
search ends before: the directions are compared first, then the gradient, the point and the bounds.
-/

namespace BoxDescent

structure Found (α : Type) where
  x : Array α
  value : α
  step : α
  slope : α
  status : SearchStatus
  newlyFixed : List Nat
  direction : Array α

namespace Found

def ofResult {α : Type} {n : Nat} (r : SearchResult α n) : Found α :=
  { x := r.x.toArray, value := r.value, step := r.step, slope := r.slope, status := r.status
    newlyFixed := r.newlyFixed.map (·.val), direction := r.direction.toArray }

def stepTaken {α : Type} (r : Found α) : Bool :=
  r.status == .accepted

end Found

namespace Held

variable {α : Type} [Scalar α]

def steepest (h : Held α) (grad : Grid α) : Except (Error α) (Grid α) :=
  (Grid.combine (fun fixed g => if fixed then 0 else -g) (.ofArray h.fixed) grad).mapError .fault

def fitted? (n : Nat) (v : Grid α) : Option (Vector α n) :=
  -- Without variables nothing is picked, and the entries may be any number.
  if n = 0 ∧ v.rank = 1 then sized? n #[] else v.vector? n

def headsPast (h : Held α) {n : Nat} (working : Bounds α n) (epsilon : α) (direction : Vector α n)
    (i : Fin n) : Bool :=
  !(decide (direction[i] < -epsilon) && (working.bound i .lower).isSome)
    && decide (direction[i] > epsilon) && decide (h.upper.entries.size ≤ i.val)

def upperFault? (h : Held α) (n : Nat) : Option (Fault α) :=
  let m := h.upper.entries.size
  if m = n ∨ n = 1 ∧ m = 0 then none
  else if n = 1 ∨ m = 1 then some .outOfRange
  else some .mismatch

def searchRay {n : Nat} (h : Held α) (fuel : Nat) (ray : LineSearch.Ray α n) :
    Run α n (Held α × Except (Error α) (Found α)) := do
  let reached := h.withActive ray.activeSet ray.newlyFixed
  match h.upperFault? n with
  | some fault =>
    note (.trying 0 (LineSearch.firstTrial ray).step)
    return (reached, .error (.fault fault))
  | none => match ← (ray.search fuel).attempt with
    | .ok r => return (h.withActive r.activeSet r.newlyFixed, .ok (.ofResult r))
    | .error e => return (reached, .error e)

def searchHeading {n : Nat} (h : Held α) (fuel : Nat) (problem : Problem α n)
    (parameters : LineSearch.Parameters α) (a : ActiveSet α n) (x : Vector α n) (f : α)
    (heading : LineSearch.Heading α n) : Run α n (Held α × Except (Error α) (Found α)) := do
  match ← heading.minStep? parameters a.fixed x with
  | none => return (h, .ok (.ofResult (heading.stay a x f)))
  | some minStep =>
    let p := parameters.precision
    let is := a.free.takeWhile fun i => !h.headsPast a.working p.epsilon heading.direction i
    let s ← LineSearch.reach p heading.direction x a is
    if is.length < a.free.length then
      return (h.withActive s.activeSet s.newlyFixed, .error (.fault .outOfRange))
    else match ← heading.ray problem parameters a.fixed x f minStep s with
      | .inr r => return (h.withActive r.activeSet r.newlyFixed, .ok (.ofResult r))
      | .inl ray => h.searchRay fuel ray

/-- Searches from `x`, where the objective is `f`, along a direction. Answers the active set also if there
is an error, as variables may have been fixed before. -/
def search (h : Held α) (fuel : Nat) (problem : Problem α h.size)
    (parameters : LineSearch.Parameters α) (x : Array α) (f : α) (grad direction : Grid α) (maxNorm : α) :
    Run α h.size (Held α × Except (Error α) (Found α)) := do
  let n := h.size
  let fixed : Vector Bool n := h.fixed.toVector
  match fitted? n direction, fitted? n grad with
  | none, _ => return (h, .error (.fault .outOfRange))
  | some d, none =>
    note (.searchStarted f (LineSearch.scale d fixed maxNorm).norm maxNorm)
    return (h, .error (.fault .outOfRange))
  | some d, some g =>
    match ← (LineSearch.orient parameters.precision.zero fixed f g d maxNorm).attempt with
    | .error e => return (h, .error e)
    | .ok (heading, descends) =>
      let direction := if n = 0 then direction.entries else heading.direction.toArray
      if !descends then
        return (h, .ok {
          x, value := f, step := 0, slope := heading.slope, status := .stationary, newlyFixed := []
          direction })
      else match sized? n x, h.active? n with
        | some x, some a =>
          let (h, r) ← h.searchHeading fuel problem parameters a x f heading
          return (h, r.map ({ · with direction }))
        | none, _ => return (h, .error (.fault .outOfRange))
        | _, none => return (h, .error (.fault .mismatch))

end Held

end BoxDescent

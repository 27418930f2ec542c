import BoxDescent.Input.Held
import BoxDescent.Input.Model
import BoxDescent.Release

/-!
This module contains the decision which held variables to release for active sets as callers handle them.
Variables go by the positions that the caller wrote, also where a row of the Hessian is asked for.
-/

namespace BoxDescent.Held

variable {α : Type} [Scalar α] {n : Nat}

def multiplierChange (h : Held α) (row : Array α) (step : Grid α) : Except (Fault α) α := do
  let mask := Grid.ofArray h.free
  let row ← (Grid.ofArray row).select mask
  let step ← step.select mask
  return dot row.entries.toVector (Vector.ofFn fun i => step.entries.getD i 0)

def estimate (h : Held α) (m : Model α) (x grad step : Grid α) (position : Int) :
    Run α n (Release.Estimate α) := do
  let row ← match m.hessianRow with
    | none => pure none
    | some row => Logged.ofExcept (((m.argument x).bind (row · position)).mapError .fault)
  let change ← match row with
    | none => pure 0
    | some row => Logged.ofExcept ((h.multiplierChange row step).mapError .fault)
  let first ← Logged.ofExcept (h.multiplier x grad position)
  let e : Release.Estimate α := { first, change, secondOrder := row.isSome }
  note (.multipliers position e.first e.second)
  return e

structure Selection (α : Type) where
  held : Held α
  -- The last time, if there was an error.
  found : Option (List Int)
  verdict : Except (Error α) (List Int × Bool)

/-- Decides which held variables to release at `x`, where `previous` are those found the last time, and
frees them. -/
def select (h : Held α) (m : Model α) (x grad step : Grid α) (previous : Option (List Int)) :
    Run α n (Selection α) := do
  let decision ← Release.decision (h.estimate m x grad step) previous h.indices
  let h := { h with indices := decision.indices }
  match decision.verdict with
  | .error e => return { held := h, found := previous, verdict := .error e }
  | .ok (toFree, released) =>
    let (h, freed) := if released then h.releaseAll x toFree else (h, .ok ())
    return { held := h, found := some toFree, verdict := freed.map fun _ => (toFree, released) }

end BoxDescent.Held

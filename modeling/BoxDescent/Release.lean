import BoxDescent.Problem.Basic
import BoxDescent.ActiveSet

/-!
This module contains the decision which held variables to release. For each of them the multiplier of
its bound is estimated twice, at the current point and after the next step; a variable is released if
both estimates are negative and agree closely. The decision only asks for these estimates, so that it
does not matter how variables are named.
-/

namespace BoxDescent

namespace Release

variable {α : Type} [Scalar α] {n : Nat} {ι : Type} [BEq ι]

def sameIndices : Option (List ι) → Option (List ι) → Bool
  | some a, some b => a.isPerm b
  | _, _ => false

structure Estimate (α : Type) where
  first : α
  change : α
  secondOrder : Bool

namespace Estimate

def second (e : Estimate α) : α := e.first + e.change

def isReleased (e : Estimate α) : Bool :=
  e.first * e.second > 0
    ∧ 2.0 * Scalar.abs e.change < Scalar.pickMin (Scalar.abs e.first) (Scalar.abs e.second)
    ∧ e.second < 0

end Estimate

structure Scan (ι : Type) where
  kept : List ι
  toFree : List ι
  -- The point passes as a minimum.
  finished : Bool

/-- Judges one held variable. Without a row of the Hessian, the point passes as a minimum if the
variables found so far are the ones of the last time: they would only zigzag. -/
def judge (previous : Option (List ι)) (s : Scan ι) (i : ι) (e : Estimate α) : Scan ι :=
  let s := if e.isReleased then { s with toFree := s.toFree ++ [i], finished := false }
    else { s with kept := i :: s.kept }
  if !e.secondOrder && sameIndices (some s.toFree) previous then { s with finished := true } else s

structure Decision (α ι : Type) where
  indices : List ι
  verdict : Except (Error α) (List ι × Bool)

def scan (estimate : ι → Run α n (Estimate α)) (previous : Option (List ι)) (s : Scan ι) :
    List ι → Run α n (Decision α ι)
  | [] => return { indices := s.kept, verdict := .ok (s.toFree, !s.finished) }
  | i :: todo => do
    match ← (estimate i).attempt with
    | .ok e => scan estimate previous (judge previous s i e) todo
    | .error e => return { indices := todo.reverse ++ i :: s.kept, verdict := .error e }

def decision (estimate : ι → Run α n (Estimate α)) (previous : Option (List ι)) (indices : List ι) :
    Run α n (Decision α ι) := do
  note .testingRelease
  scan estimate previous { kept := [], toFree := [], finished := true } indices.reverse

def estimate (p : Problem α n) (a : ActiveSet α n) (x grad step : Vector α n) (i : Fin n) :
    Run α n (Estimate α) := do
  let row ← p.evalHessianRow x i
  let change := match row with
    | some h => dotOver a.free h step
    | none => 0
  let first ← Logged.ofExcept (a.multiplier x grad i)
  let e : Estimate α := { first, change, secondOrder := row.isSome }
  note (.multipliers i.val e.first e.second)
  return e

def select (p : Problem α n) (a : ActiveSet α n) (x grad step : Vector α n)
    (previous : Option (List (Fin n))) : Run α n (Decision α (Fin n)) :=
  decision (estimate p a x grad step) previous a.indices

end Release

end BoxDescent

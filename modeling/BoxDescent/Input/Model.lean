import BoxDescent.Input.Tensor
import BoxDescent.Problem.Quadratic
import BoxDescent.Problem.Rosenbrock
import BoxDescent.Problem.Formula

/-!
This module contains problems that do not know the size of their points. They accept any point, and
fault on one that does not fit; `Model.problem` is the problem that they are at a given size.
-/

namespace BoxDescent

structure Model (α : Type) where
  bareFault : Option (Fault α) := none
  objective : Array α → Except (Fault α) α
  gradient : Array α → Except (Fault α) (Array α)
  hessianRow : Option (Array α → Int → Except (Fault α) (Option (Array α))) := none

namespace Model

variable {α : Type}

def argument (m : Model α) (x : Grid α) : Except (Fault α) (Array α) :=
  match x.rank with
  | 0 => match m.bareFault with
    | some fault => .error fault
    | none => .ok #[]
  | 1 => .ok x.entries
  | _ => .error .mismatch

/-- The problem at points of size `n`. A gradient or a row of another length is a fault. -/
def problem (m : Model α) (n : Nat) : Problem α n :=
  { objective := fun x => m.objective x.toArray
    gradient := fun x => do
      let g ← m.gradient x.toArray
      match sized? n g with
      | some g => return g
      | none => .error (.gradientLength g)
    hessianRow := m.hessianRow.map fun row x i => do
      match ← row x.toArray (i.val : Int) with
      | none => return none
      | some h => match sized? n h with
        | some h => return some h
        | none => .error .outOfRange }

variable [Scalar α]

def ofQuadratic {n : Nat} (q : Quadratic α n) : Model α :=
  { objective := fun x => match sized? n x with
      | some x => .ok (q.objective x)
      | none => .error .mismatch
    gradient := fun x => match sized? n x with
      | some x => .ok (q.gradient x).toArray
      | none => .error .mismatch
    hessianRow := some fun _ i => match place? n i with
      | some i => .ok (some q.matrix[i].toArray)
      | none => .error .outOfRange }

def quadratic (matrix : Grid α) (linear : Option (Grid α)) (constant : α) :
    Except (Error α) (Model α) := do
  let n := matrix.shape.headD 0
  match matrix.square? n with
  | none => .error (.refusal (.matrixShape matrix.shape))
  | some m =>
    let q ← (Quadratic.ofMatrix m (Vector.replicate n 0) constant).mapError .refusal
    match linear with
    | none => return ofQuadratic q
    | some b => match b.vector? n with
      | none => .error (.refusal (.linearTermShape b.shape n))
      | some b => return ofQuadratic { q with linear := b }

def rosenbrockRowFromEnd {n : Nat} (r : Rosenbrock α) (x : Vector α n) (i : Fin n) : Vector α n :=
  -- The right neighbour is taken around the end.
  let next : Fin n := ⟨(i + 1) % n, Nat.mod_lt _ (Nat.zero_lt_of_lt i.isLt)⟩
  ((Vector.replicate n 0).set i (r.bend x[i] x[next]) i.isLt).set next (r.mixed x[i]) next.isLt

def rosenbrock (r : Rosenbrock α) : Model α :=
  { bareFault := some .outOfRange
    objective := fun x => .ok (r.objective x.toVector)
    gradient := fun x => .ok (r.gradient x.toVector).toArray
    hessianRow := some fun x i =>
      match place? x.size i with
      | some p =>
        if i < 0 then .ok (some (rosenbrockRowFromEnd r x.toVector p).toArray)
        else .ok (some (r.hessianRow x.toVector p).toArray)
      | none => if x.size = 0 ∧ (i = 0 ∨ i = -1) then .ok (some #[]) else .error .outOfRange }

def formulas (f : Formula α) (g : List (Formula α))
    (h : Option (List (Option (List (Formula α))))) : Model α :=
  { objective := fun x => f.eval x
    gradient := fun x => return (← g.mapM (·.eval x)).toArray
    hessianRow := h.map fun rows x i =>
      match place? rows.length i with
      | none => .error .outOfRange
      | some i => match rows[i] with
        | none => .ok none
        | some row => return some (← row.mapM (·.eval x)).toArray }

end Model

end BoxDescent

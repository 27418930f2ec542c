import BoxDescent.Input.Box
import BoxDescent.Factor.Update

/-!
This module contains triangular systems and factors of any shape. If the shapes fit, the operations are
those of `BoxDescent.Triangle` and `BoxDescent.Factor`, and otherwise it is said here which fault a
misfit leads to. Some misfits are harmless, as an operation only reads the rows and columns that it needs.
-/

namespace BoxDescent

namespace Input

variable {α : Type} [Scalar α]

def solveTriangular (m b : Grid α) (triangle : Triangle) (skip : Option (Array Bool)) :
    Except (Error α) (Array α) :=
  match b.shape with
  | [] => .error (.fault .outOfRange)
  | n :: inner =>
    match m.square? n with
    | none => .error (.refusal (.systemShape m.shape n))
    | some m =>
      let skip := skip.getD (Array.replicate n false)
      let rowFault := fun j : Fin n => match skip[j.val]? with
        | none => some Fault.outOfRange
        | some skipped => if skipped || Grid.count inner = 1 then none else some .mismatch
      match (triangle.order n).findSome? rowFault with
      | some fault => .error (.fault fault)
      | none => .ok (triangle.solve m (Vector.ofFn fun j => b.entries.getD j 0)
          (Vector.ofFn fun j => skip.getD j true)).toArray

/-- Factors as they are handed in. -/
structure Factors (α : Type) where
  lower : Grid α
  diag : Grid α

namespace Factors

def ofFactor {n : Nat} (f : Factor α n) : Factors α :=
  { lower := .ofSquare f.lower, diag := .ofArray f.diag.toArray }

def factor? (n : Nat) (f : Factors α) : Option (Factor α n) :=
  return { lower := ← f.lower.square? n, diag := ← f.diag.vector? n }

def restrict (f : Factors α) (fixed : Array Bool) (rows columns : Nat) :
    Except (Fault α) (Factors α) :=
  let isFree := fun i : Nat => fixed[i]? == some false
  let isFixed := fun i : Nat => fixed[i]? == some true
  if (List.range fixed.size).any fun i => isFree i && (rows ≤ i || columns ≤ i) then .error .outOfRange
  else if !(Grid.ofArray fixed).fits f.diag then .error .outOfRange
  else .ok {
    lower := f.lower.mapAt fun
      | i :: j :: _, l => if isFree i && isFree j then l else if i = j && isFixed i then 1 else 0
      | _, l => l
    diag := f.diag.mapAt fun
      | i :: _, d => if isFree i then d else 0
      | _, d => d }

def increase (f : Factors α) (n : Nat) (v : Array α) (coeff : α) (fixed : Array Bool)
    (rows columns : Nat) : Except (Fault α) (Factors α) :=
  let swept := (List.range n).filter fun j => fixed[j]? == some false
  let missing := fun j : Nat => rows ≤ j || columns ≤ j || f.diag.entries.size ≤ j
  let below := fun i : Nat => fixed[i]? == some false && swept.any (· < i)
  if fixed.size < n || swept.any missing || (List.range fixed.size).any fun i => below i && rows ≤ i then
    .error .outOfRange
  else
    let size := max (max rows columns) (max fixed.size f.diag.entries.size)
    let covered := Vector.ofFn fun i : Fin size => fixed.getD i true
    let g : Factor α size :=
      { lower := .ofFn fun i j => if i < rows ∧ j < columns then (f.lower.get? [i, j]).getD 0 else 0
        diag := Vector.ofFn fun i => f.diag.entries.getD i 0 }
    let start : Factor.Increase.State α size :=
      { rest := coeff
        reduced := Vector.ofFn fun i => if covered[i] then 0 else v.getD i (v.getD 0 0)
        out :=
          { lower := .ofFn fun i j => if i = j ∧ fixed.getD i false then 1 else 0
            diag := Vector.replicate size 0 } }
    let done := (((unmasked covered).filter (·.val < n)).foldl (Factor.Increase.step g covered) start).out
    .ok {
      lower := f.lower.mapAt fun
        | [i, j], l => (done.lower[i]?.bind (·[j]?)).getD l
        | _, l => l
      diag := f.diag.mapAt fun
        | i :: _, d => (done.diag[i]?).getD d
        | _, d => d }

def firstSwept? (n : Nat) (fixed : Array Bool) : Option Nat :=
  (List.range n).find? fun j => fixed[j]? != some true

def updateMisfit (f : Factors α) (v : Grid α) (coeff : α) (fixed : Array Bool) :
    Except (Error α) (Factors α) :=
  match v.shape, f.lower.shape with
  | n :: _, rows :: columns :: _ =>
    if (List.range fixed.size).any fun i => fixed.getD i false && (rows ≤ i || columns ≤ i) then
      .error (.fault .outOfRange)
    else if Scalar.equal coeff 0 then (f.restrict fixed rows columns).mapError .fault
    else if (Grid.joint [fixed.size] v.shape).isNone then .error (.fault .mismatch)
    else if 0 < coeff then
      if v.rank = 1 ∧ f.lower.rank = 2 ∧ f.diag.entries.size = f.diag.shape.headD 0 then
        (f.increase n v.entries coeff fixed rows columns).mapError .fault
      else match firstSwept? n fixed with
        | none => (f.increase 0 #[] coeff fixed rows columns).mapError .fault
        | some j =>
          if fixed.size ≤ j ∨ rows ≤ j ∨ columns ≤ j ∨ f.diag.shape.headD 0 ≤ j then
            .error (.fault .outOfRange)
          else .error (.fault .mismatch)
    else if f.lower.shape ≠ [n, n] then .error (.refusal (.systemShape f.lower.shape n))
    else .error (.fault (if fixed.size ≠ n ∨ v.rank = 1 then .outOfRange else .mismatch))
  | _, _ => .error (.fault .outOfRange)

def update (f : Factors α) (v : Grid α) (coeff : α) (fixed : Array Bool) (zero : α) :
    Except (Error α) (Factors α) :=
  match f.factor? fixed.size, v.vector? fixed.size with
  | some g, some w => return .ofFactor (← g.update w coeff fixed.toVector zero)
  | _, _ => f.updateMisfit v coeff fixed

def resetAt (f : Factors α) (position : Int) (value : α) : Factors α × Except (Error α) Unit :=
  let fault := .error (.fault .outOfRange)
  match f.lower.shape with
  | rows :: columns :: _ =>
    match place? rows position with
    | none => (f, fault)
    | some r =>
      let f := { f with lower := f.lower.mapAt fun i l => if i.head? = some r.val then 0 else l }
      match place? columns position with
      | none => (f, fault)
      | some c =>
        let cleared := f.lower.mapAt fun
          | i :: j :: _, l => if j ≠ c.val then l else if i = r.val then 1 else 0
          | _, l => l
        let f := { f with lower := cleared }
        match f.diag.fillPart position value with
        | .error e => (f, .error (.fault e))
        | .ok diag => ({ f with diag }, .ok ())
  | _ => (f, fault)

def reset (f : Factors α) (positions : List Int) (value : α) : Factors α × Except (Error α) Unit :=
  let n := f.diag.entries.size
  match f.factor? n, positions.mapM (place? n) with
  | some g, some places => (.ofFactor (g.resetAll places value), .ok ())
  | _, _ => positions.foldl (fun (f, done) i => match done with
      | .error e => (f, .error e)
      | .ok () => f.resetAt i value) (f, .ok ())

def direction (f : Factors α) (grad : Grid α) (fixed : Array Bool) : Except (Error α) (Array α) := do
  let mask := Grid.ofArray fixed
  let b ← (Grid.combine (fun fixed g => if fixed then 0 else -g) mask grad).mapError Error.fault
  if f.diag.rank = 0 then .error (.fault .outOfRange)
  else if Grid.joint f.lower.shape (1 :: f.diag.shape) ≠ some f.lower.shape then .error (.fault .mismatch)
  else if fixed.size ≠ 0 ∧ f.lower.shape[1]? ≠ some fixed.size then .error (.fault .outOfRange)
  else
    let n := fixed.size
    match f.lower.square? n, if b.shape.head? = some n then sized? n b.entries else none with
    | some lower, some b =>
      let diag := Vector.ofFn fun i : Fin n => f.diag.entries.getD i (f.diag.entries.getD 0 0)
      match Factor.direction { lower, diag } (b.map (-·)) fixed.toVector with
      | .ok p => return p.toArray
      | .error (.breakdown (.direction .forward i rhs d)) =>
        if i < f.diag.entries.size then .error (.breakdown (.direction .forward i rhs d))
        else .error (.fault .outOfRange)
      | .error e => .error e
    | _, _ => solveTriangular f.lower b .lower (some fixed)

end Factors

end Input

end BoxDescent

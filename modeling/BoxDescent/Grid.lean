import BoxDescent.Vector
import BoxDescent.Error

/-!
This module contains rectangular arrays of any number of dimensions. Two of them are combined entry by
entry, aligned at their last dimensions, where a length of one goes with every length. A mask picks out
parts of a grid: it goes with the outer dimensions, and a mask without entries picks nothing out of any.
-/

namespace BoxDescent

structure Grid (β : Type) where
  shape : List Nat
  -- The last position runs fastest.
  entries : Array β

namespace Grid

variable {α β γ δ : Type}

def count (shape : List Nat) : Nat :=
  shape.foldl (· * ·) 1

def positions : List Nat → List (List Nat)
  | [] => [[]]
  | n :: shape => (List.range n).flatMap fun i => (positions shape).map (i :: ·)

def offset : List Nat → List Nat → Nat
  | _ :: shape, i :: is => i * count shape + offset shape is
  | _, _ => 0

def rank (g : Grid β) : Nat :=
  g.shape.length

def get? (g : Grid β) (i : List Nat) : Option β :=
  g.entries[offset g.shape i]?

def tabulate (shape : List Nat) (f : List Nat → Option β) : Grid β :=
  { shape, entries := ((positions shape).filterMap f).toArray }

def ofArray (v : Array β) : Grid β :=
  { shape := [v.size], entries := v }

def ofSquare {n : Nat} (m : Square β n) : Grid β :=
  { shape := [n, n], entries := m.toArray.flatMap Vector.toArray }

def map (f : β → γ) (g : Grid β) : Grid γ :=
  { g with entries := g.entries.map f }

def mapAt (f : List Nat → β → β) (g : Grid β) : Grid β :=
  tabulate g.shape fun i => (g.get? i).map (f i)

def vector? (n : Nat) (g : Grid β) : Option (Vector β n) :=
  if g.shape = [n] then sized? n g.entries else none

def square? (n : Nat) (g : Grid β) : Option (Square β n) :=
  if g.shape = [n, n] then Vector.ofFnM fun i : Fin n => Vector.ofFnM fun j : Fin n => g.get? [i, j]
  else none

def joint (s t : List Nat) : Option (List Nat) :=
  (aligned s.reverse t.reverse).map List.reverse
where
  aligned : List Nat → List Nat → Option (List Nat)
    | [], t => some t
    | s, [] => some s
    | m :: s, n :: t => do
      let rest ← aligned s t
      if m = n ∨ n = 1 then some (m :: rest)
      else if m = 1 then some (n :: rest)
      else none

/-- The entry of a grid that stands at a position of a larger shape. -/
def stretched? (g : Grid β) (i : List Nat) : Option β :=
  g.get? (List.zipWith (fun n k => if n = 1 then 0 else k) g.shape (i.drop (i.length - g.rank)))

def combine (f : β → γ → δ) (a : Grid β) (b : Grid γ) : Except (Fault α) (Grid δ) :=
  match joint a.shape b.shape with
  | none => .error .mismatch
  | some shape => .ok (tabulate shape fun i => return f (← a.stretched? i) (← b.stretched? i))

def fits (mask : Grid Bool) (g : Grid β) : Bool :=
  mask.rank ≤ g.rank && (mask.shape.zip g.shape).all fun (m, n) => m == 0 || m == n

def chosen (mask : Grid Bool) : List (List Nat) :=
  (positions mask.shape).filter fun i => mask.get? i == some true

def picked (mask : Grid Bool) (g : Grid β) : List Nat :=
  mask.chosen.length :: g.shape.drop mask.rank

def select (g : Grid β) (mask : Grid Bool) : Except (Fault α) (Grid β) :=
  if mask.fits g then
    let places := mask.chosen.flatMap fun i => (positions (g.shape.drop mask.rank)).map (i ++ ·)
    .ok { shape := mask.picked g, entries := (places.filterMap g.get?).toArray }
  else .error .outOfRange

def assign (g : Grid β) (mask : Grid Bool) (values : Grid β) : Except (Fault α) (Grid β) :=
  if !mask.fits g then .error .outOfRange
  else if joint values.shape (mask.picked g) ≠ some (mask.picked g) then .error .mismatch
  else .ok (g.mapAt fun i b => match mask.chosen.idxOf? (i.take mask.rank) with
    | some k => (values.stretched? (k :: i.drop mask.rank)).getD b
    | none => b)

def outer (g : Grid β) (position : Int) : Except (Fault α) Nat :=
  match g.shape with
  | [] => .error .outOfRange
  | n :: _ => match place? n position with
    | some i => .ok i
    | none => .error .outOfRange

def part (g : Grid β) (position : Int) : Except (Fault α) (Grid β) := do
  let i ← g.outer position
  return tabulate (g.shape.drop 1) fun is => g.get? (i :: is)

def copyPart (g source : Grid β) (position : Int) : Except (Fault α) (Grid β) := do
  let i ← g.outer position
  return g.mapAt fun is b => if is.head? = some i then (source.get? is).getD b else b

def fillPart (g : Grid β) (position : Int) (value : β) : Except (Fault α) (Grid β) :=
  g.copyPart (g.map fun _ => value) position

def single (g : Grid β) : Except (Fault α) β :=
  match g.entries[0]? with
  | some b => if g.entries.size = 1 then .ok b else .error .mismatch
  | none => .error .mismatch

def entry (g : Grid β) (position : Int) : Except (Fault α) β := do
  (← g.part position).single

end Grid

end BoxDescent

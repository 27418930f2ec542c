import BoxDescent.Grid

/-!
This module contains nested lists of numbers, as data arrives before its shape is known. If the lists of
each level are equally long they are a grid.
-/

namespace BoxDescent

inductive Tensor (α : Type) where
  | number (x : α)
  | list (entries : List (Tensor α))

namespace Tensor

variable {α : Type}

mutual

/-- The lengths of the nested lists, from the outside in; a fault if they are not all alike. -/
def shape : Tensor α → Except (Fault α) (List Nat)
  | number _ => .ok []
  | list entries => do
    match ← commonShape entries with
    | none => return [0]
    | some s => return entries.length :: s

def commonShape : List (Tensor α) → Except (Fault α) (Option (List Nat))
  | [] => .ok none
  | t :: ts => do
    let s ← t.shape
    match ← commonShape ts with
    | none => return some s
    | some s' => if s = s' then return some s else .error .mismatch

end

mutual

def numbers : Tensor α → List α
  | number x => [x]
  | list entries => allNumbers entries

def allNumbers : List (Tensor α) → List α
  | [] => []
  | t :: ts => t.numbers ++ allNumbers ts

end

def grid (t : Tensor α) : Except (Error α) (Grid α) := do
  let shape ← t.shape.mapError Error.fault
  return { shape, entries := t.numbers.toArray }

end Tensor

end BoxDescent

import BoxDescent.Vector

/-!
This module contains the solution of triangular systems by substitution. Rows can be left out of the
system: their unknowns are zero, and nothing of those rows is read.
-/

namespace BoxDescent

inductive Triangle where
  | lower
  | upper
  deriving DecidableEq

namespace Triangle

variable {α : Type} [Scalar α] {n : Nat}

def order (n : Nat) : Triangle → List (Fin n)
  | lower => List.finRange n
  | upper => (List.finRange n).reverse

def beside (j : Fin n) : Triangle → List (Fin n)
  | lower => (List.finRange n).filter (· < j)
  | upper => (List.finRange n).filter (j < ·)

def unknown (t : Triangle) (m : Square α n) (b x : Vector α n) (j : Fin n) : α :=
  (b[j] - dotOver (t.beside j) m[j] x) / m[j][j]

/-- Solves `m * x = b` for the rows that `skip` does not mask. A zero on the diagonal is not an error:
the unknowns that depend on it come out infinite or undefined. -/
def solve (t : Triangle) (m : Square α n) (b : Vector α n) (skip : Vector Bool n) : Vector α n :=
  ((t.order n).filter fun j => !skip[j]).foldl
    (fun x (j : Fin n) => x.set j (t.unknown m b x j) j.isLt) (Vector.replicate n 0)

end Triangle

end BoxDescent

import BoxDescent.Problem.Basic

/-!
This module contains quadratic objectives `½ xᵀAx + bᵀx + c` with a symmetric matrix. Their gradient is
`Ax + b` and their Hessian is `A`.
-/

namespace BoxDescent

structure Quadratic (α : Type) (n : Nat) where
  matrix : Square α n
  linear : Vector α n
  constant : α

namespace Quadratic

variable {α : Type} [Scalar α] {n : Nat}

def close (a b : α) : Bool :=
  (Scalar.abs (a - b) ≤ 1e-8 + 1e-5 * Scalar.abs b && Scalar.isFinite b) || Scalar.equal a b

def isSymmetric (m : Square α n) : Bool :=
  (List.finRange n).all fun i => (List.finRange n).all fun j => close m[i][j] m[j][i]

/-- A quadratic with a matrix that passes as symmetric. -/
def ofMatrix (m : Square α n) (linear : Vector α n) (constant : α) :
    Except (Refusal α) (Quadratic α n) :=
  if isSymmetric m then .ok { matrix := m, linear, constant } else .error .matrixAsymmetric

def objective (q : Quadratic α n) (x : Vector α n) : α :=
  0.5 * dot x (q.matrix.mulVec x) + dot q.linear x + q.constant

def gradient (q : Quadratic α n) (x : Vector α n) : Vector α n :=
  let product := q.matrix.mulVec x
  Vector.ofFn fun i => product[i] + q.linear[i]

def problem (q : Quadratic α n) : Problem α n :=
  { objective := fun x => .ok (q.objective x)
    gradient := fun x => .ok (q.gradient x)
    hessianRow := some fun _ i => .ok (some q.matrix[i]) }

end Quadratic

end BoxDescent

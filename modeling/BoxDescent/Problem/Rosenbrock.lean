import BoxDescent.Problem.Basic

/-!
This module contains the Rosenbrock function, the sum over neighbours `x, y` of
`(a - x)² + b (y - x²)²`. Its Hessian is tridiagonal.
-/

namespace BoxDescent

structure Rosenbrock (α : Type) where
  a : α
  b : α

namespace Rosenbrock

variable {α : Type} [Scalar α] {n : Nat}

def after? (i : Fin n) : Option (Fin n) :=
  if h : i + 1 < n then some ⟨i + 1, h⟩ else none

def before? (i : Fin n) : Option (Fin n) :=
  if h : 0 < i.val then some ⟨i - 1, by omega⟩ else none

/-- The valley term between the neighbours `x` and `y`: zero where `y = x²`. -/
def residual (x y : α) : α :=
  y - Scalar.square x

def objective (r : Rosenbrock α) (x : Vector α n) : α :=
  sumOver ((List.finRange n).filter fun i => (after? i).isSome) fun i =>
    match after? i with
    | some j => Scalar.square (r.a - x[i]) + r.b * Scalar.square (residual x[i] x[j])
    | none => 0

def partialDerivative (r : Rosenbrock α) (x : Vector α n) (i : Fin n) : α :=
  let own := match after? i with
    | some j => -2.0 * (r.a - x[i]) - 4.0 * r.b * x[i] * residual x[i] x[j]
    | none => 0
  match before? i with
  | some k => own + 2.0 * r.b * residual x[k] x[i]
  | none => own

def gradient (r : Rosenbrock α) (x : Vector α n) : Vector α n :=
  Vector.ofFn (r.partialDerivative x)

def bend (r : Rosenbrock α) (x y : α) : α :=
  2.0 - 4.0 * r.b * (y - 3.0 * Scalar.square x)

def mixed (r : Rosenbrock α) (x : α) : α :=
  -4.0 * r.b * x

def diagonal (r : Rosenbrock α) (x : Vector α n) (i : Fin n) : α :=
  let own := match after? i with
    | some j => r.bend x[i] x[j]
    | none => 0
  match before? i with
  | some _ => own + 2.0 * r.b
  | none => own

def hessianRow (r : Rosenbrock α) (x : Vector α n) (i : Fin n) : Vector α n :=
  Vector.ofFn fun j =>
    if j = i then r.diagonal x i
    else if after? i = some j then r.mixed x[i]
    else if before? i = some j then r.mixed x[j]
    else 0

def problem (r : Rosenbrock α) : Problem α n :=
  { objective := fun x => .ok (r.objective x)
    gradient := fun x => .ok (r.gradient x)
    hessianRow := some fun x i => .ok (some (r.hessianRow x i)) }

end Rosenbrock

end BoxDescent

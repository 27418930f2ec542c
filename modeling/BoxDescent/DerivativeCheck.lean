import BoxDescent.Problem.Basic

/-!
This module contains the check of derivatives: the gradient is compared with forward differences of the
objective, and each row of the Hessian with forward differences of an entry of the gradient.
-/

namespace BoxDescent

variable {α : Type} [Scalar α] {n : Nat}

namespace DerivativeCheck

structure Comparison (α : Type) where
  supplied : α
  difference : α

def Comparison.error (c : Comparison α) : α :=
  Scalar.abs (c.supplied - c.difference) / Scalar.maximum (Scalar.abs c.supplied) 1

def Comparison.isBad (tolerance : α) (c : Comparison α) : Bool :=
  c.error > tolerance

structure Result (α : Type) (m n : Nat) where
  tolerance : α
  gradient : Vector (Comparison α) m
  hessian : Option (Vector (Option (Vector (Comparison α) n)) n)

namespace Result

variable {m : Nat}

def badGradient (r : Result α m n) : List (Fin m) :=
  (List.finRange m).filter fun i => r.gradient[i].isBad r.tolerance

def badRow (r : Result α m n) (row : Option (Vector (Comparison α) n)) : List (Fin n) :=
  match row with
  | none => []
  | some row => (List.finRange n).filter fun j => row[j].isBad r.tolerance

def badHessian (r : Result α m n) : List (Fin n × Fin n) :=
  match r.hessian with
  | none => []
  | some rows => (List.finRange n).flatMap fun i => (r.badRow rows[i]).map fun j => (i, j)

def ok (r : Result α m n) : Bool :=
  r.badGradient.isEmpty && r.badHessian.isEmpty

end Result

def stepFor (root step xi : α) : α :=
  if Scalar.equal (xi + step - xi) 0 then
    let size := root * Scalar.maximum 1 (Scalar.abs xi)
    if xi ≥ 0 then size else -size
  else step

def forwardDifferences (root step : α) (f : Vector α n → Except (Fault α) α) (x : Vector α n) :
    Except (Fault α) (Vector α n) := do
  let f₀ ← f x
  Vector.ofFnM fun i : Fin n => do
    let shifted := x[i] + stepFor root step x[i]
    let f₁ ← f (x.set i shifted i.isLt)
    return (f₁ - f₀) / (shifted - x[i])

def defaultStep (root : α) (x : Vector α n) : α :=
  root * (1 + sumOver (List.finRange n) fun i => Scalar.abs x[i])

def compare (supplied difference : Vector α n) : Vector (Comparison α) n :=
  Vector.ofFn fun i => { supplied := supplied[i], difference := difference[i] }

def run (root step tolerance : α) (objective : Vector α n → Except (Fault α) α)
    (entry : Vector α n → Fin n → Except (Fault α) α) (gradient : Vector α n)
    (row : Option (Fin n → Except (Fault α) (Option (Vector α n)))) (x : Vector α n) :
    Except (Fault α) (Result α n n) := do
  let differences ← forwardDifferences root step objective x
  let result : Result α n n :=
    { tolerance, gradient := compare gradient differences, hessian := none }
  match row with
  | none => return result
  | some row =>
    let rows ← Vector.ofFnM fun i : Fin n => do
      let supplied ← row i
      let differences ← forwardDifferences root step (entry · i) x
      return supplied.map (compare · differences)
    return { result with hessian := some rows }

end DerivativeCheck

/-- Compares the derivatives of a problem at `x` with forward differences. `root` is the square root of
the relative spacing of numbers. -/
def checkDerivatives (problem : Problem α n) (root : α) (x : Vector α n) (step : Option α)
    (tolerance : α) : Except (Fault α) (DerivativeCheck.Result α n n) := do
  let gradient ← problem.gradient x
  DerivativeCheck.run root (step.getD (DerivativeCheck.defaultStep root x)) tolerance
    problem.objective (fun z i => return (← problem.gradient z)[i]) gradient
    (problem.hessianRow.map (· x)) x

end BoxDescent

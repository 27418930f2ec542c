import BoxDescent.Triangle
import BoxDescent.Error

/-!
This module contains the factors of a symmetric matrix `L * D * Lᵀ`, with `L` unit lower triangular and
`D` diagonal, and what the method does with them: variables are taken out of the product or put back,
and the product is solved for the next search direction.
-/

namespace BoxDescent

structure Factor (α : Type) (n : Nat) where
  lower : Square α n
  diag : Vector α n

namespace Factor

variable {α : Type} [Scalar α] {n : Nat}

def identity : Factor α n :=
  { lower := .identity, diag := Vector.replicate n 1 }

/-- Makes row and column `i` those of the identity, with `value` on the diagonal of `D`. -/
def reset (f : Factor α n) (i : Fin n) (value : α) : Factor α n :=
  { lower := .ofFn fun r c => if r = i ∨ c = i then if r = c then 1 else 0 else f.lower[r][c]
    diag := f.diag.set i value i.isLt }

def resetAll (f : Factor α n) (is : List (Fin n)) (value : α) : Factor α n :=
  is.foldl (fun f i => f.reset i value) f

def scaled (f : Factor α n) (fixed : Vector Bool n) : Square α n :=
  .ofFn fun i j => if fixed[j] then 0 else f.lower[i][j] * f.diag[j]

def firstNonFinite? (v : Vector α n) : Option (Fin n) :=
  (List.finRange n).find? fun i => !Scalar.isFinite v[i]

def direction (f : Factor α n) (grad : Vector α n) (fixed : Vector Bool n) :
    Except (Error α) (Vector α n) :=
  let b := Vector.ofFn fun i : Fin n => if fixed[i] then 0 else -grad[i]
  let y := Triangle.lower.solve (f.scaled fixed) b fixed
  match firstNonFinite? y with
  | some i => .error (.breakdown (.direction .forward i b[i] f.diag[i]))
  | none =>
    let p := Triangle.upper.solve f.lower.transpose y fixed
    match firstNonFinite? p with
    | some i => .error (.breakdown (.direction .backward i y[i] f.lower[i][i]))
    | none => .ok p

end Factor

end BoxDescent

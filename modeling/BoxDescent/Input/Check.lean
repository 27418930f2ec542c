import BoxDescent.Input.Model
import BoxDescent.DerivativeCheck

/-!
This module contains the derivative check for models whose derivatives may have any length. A gradient or
a row of the Hessian that fits is checked as it is, and a single entry stands for all of them. In one
variable, each entry of a longer gradient is compared with the one difference there is.
-/

namespace BoxDescent

namespace Input

variable {α : Type} [Scalar α]

def point (x : Grid α) : Except (Fault α) (Array α) :=
  match x.rank with
  | 0 => .error .outOfRange
  | 1 => .ok x.entries
  | _ => .error .mismatch

def compareAll (supplied : Array α) (differences : Array α) :
    Except (Fault α) (Array (DerivativeCheck.Comparison α)) := do
  let g ← Grid.combine DerivativeCheck.Comparison.mk (.ofArray supplied) (.ofArray differences)
  return g.entries

def checkPrinted {m : Nat} (size : Nat) (bad : List (Fin m)) : Except (Fault α) Unit :=
  if bad.all (·.val < size) then .ok () else .error .outOfRange

def checkRow (m : Model α) (row : Array α → Int → Except (Fault α) (Option (Array α))) (root step : α)
    {n : Nat} (x : Vector α n) (i : Fin n) :
    Except (Fault α) (Option (Vector (DerivativeCheck.Comparison α) n × Nat)) := do
  let supplied ← row x.toArray (i.val : Int)
  let differences ← DerivativeCheck.forwardDifferences root step
    (fun z => do
      let g ← m.gradient z.toArray
      match g[i.val]? with
      | some d => return d
      | none => .error .outOfRange) x
  match supplied with
  | none => return none
  | some supplied => match sized? n (← compareAll supplied differences.toArray) with
    | some row => return some (row, supplied.size)
    | none => .error .mismatch

/-- Compares the derivatives of a model at a point with forward differences. If lines about bad
derivatives are to be printed, a bad entry that another one stands for is a fault. -/
def checkDerivatives (m : Model α) (root : α) {n : Nat} (x : Vector α n) (step : Option α)
    (tolerance : α) (printed : Bool) :
    Except (Fault α) (Σ k : Nat, DerivativeCheck.Result α k n) := do
  let step := step.getD (DerivativeCheck.defaultStep root x)
  let supplied ← m.gradient x.toArray
  let differences ← DerivativeCheck.forwardDifferences root step (m.objective ·.toArray) x
  let gradient ← compareAll supplied differences.toArray
  let result : DerivativeCheck.Result α gradient.size n :=
    { tolerance, gradient := gradient.toVector, hessian := none }
  if printed then checkPrinted (min supplied.size n) result.badGradient
  match m.hessianRow with
  | none => return ⟨_, result⟩
  | some row =>
    let rows ← Vector.ofFnM fun i : Fin n => do
      match ← checkRow m row root step x i with
      | none => return none
      | some (compared, size) =>
        if printed then checkPrinted size (result.badRow (some compared))
        return some compared
    return ⟨_, { result with hessian := some rows }⟩

end Input

end BoxDescent

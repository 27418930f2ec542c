import BoxDescent.Vector
import BoxDescent.Error

/-!
This module contains formulas in the variables of a point, to state objectives and derivatives with.
-/

namespace BoxDescent

inductive Formula (α : Type) where
  | const (value : α)
  -- Negative positions count from the end.
  | var (position : Int)
  | add (a b : Formula α)
  | sub (a b : Formula α)
  | mul (a b : Formula α)
  | div (a b : Formula α)
  | neg (a : Formula α)
  | sqrt (a : Formula α)
  | abs (a : Formula α)
  | pow (a : Formula α) (k : Nat)
  | ifLess (a b c d : Formula α)

namespace Formula

variable {α : Type} [Scalar α]

/-- The value at a point. Only the branch taken is evaluated. -/
def eval (x : Array α) : Formula α → Except (Fault α) α
  | const value => .ok value
  | var position => match place? x.size position with
    | some i => .ok x[i]
    | none => .error .outOfRange
  | add a b => return (← a.eval x) + (← b.eval x)
  | sub a b => return (← a.eval x) - (← b.eval x)
  | mul a b => return (← a.eval x) * (← b.eval x)
  | div a b => return (← a.eval x) / (← b.eval x)
  | neg a => return -(← a.eval x)
  | sqrt a => return Scalar.sqrt (← a.eval x)
  | abs a => return Scalar.abs (← a.eval x)
  | pow a k => return Scalar.power (← a.eval x) k
  | ifLess a b c d => do
    if (← a.eval x) < (← b.eval x) then c.eval x else d.eval x

end Formula

end BoxDescent

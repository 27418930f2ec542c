/-!
This module contains the arithmetic that the whole library is written over. A `Scalar` has the field
operations, a square root and decidable comparisons, but no laws: doubles, the reals and the reals
with infinities are all scalars, and each algorithm is stated once for all of them.

Comparisons may be false in both directions, as they are for a double that is not a number. So a test
is always written in the direction in which it is meant, and never negated and turned around.
-/

namespace BoxDescent

class Scalar (α : Type) extends Add α, Sub α, Mul α, Div α, Neg α, Zero α, One α, OfScientific α,
    LE α, LT α where
  decLE : DecidableLE α
  decLT : DecidableLT α
  abs : α → α
  sqrt : α → α
  isFinite : α → Bool
  ofCount : Nat → α

namespace Scalar

variable {α : Type} [Scalar α]

instance : DecidableLE α := decLE
instance : DecidableLT α := decLT

def equal (a b : α) : Bool := a ≤ b && b ≤ a

def isUndefined (a : α) : Bool := !decide (a ≤ a)

def undefined : α := 0 / 0

def pickMin (a b : α) : α := if b < a then b else a

def pickMax (a b : α) : α := if a < b then b else a

def minimum (a b : α) : α := if a ≤ b ∨ isUndefined a then a else b

def maximum (a b : α) : α := if b ≤ a ∨ isUndefined a then a else b

def square (a : α) : α := a * a

def squareOverflows (a : α) : Bool := isFinite a && !isFinite (square a)

def power (a : α) : Nat → α
  | 0 => 1
  | 1 => a
  | k + 1 => power a k * a

def smallestIncrement (fuel : Nat) (step : α) : α :=
  match fuel with
  | 0 => 2.0 * step
  | fuel + 1 => if 1 < 1 + step then smallestIncrement fuel (step / 2.0) else 2.0 * step

end Scalar

/-- The two small numbers that the tolerances of the method derive from. -/
structure Precision (α : Type) where
  epsilon : α
  zero : α

namespace Precision

variable {α : Type} [Scalar α]

def measured (fuel : Nat) : Precision α :=
  let epsilon := Scalar.smallestIncrement fuel 1
  { epsilon, zero := Scalar.sqrt epsilon }

end Precision

end BoxDescent

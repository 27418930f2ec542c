import BoxDescent.Scalar

/-!
This module contains the arithmetic of doubles, and their precision.
-/

namespace BoxDescent

instance : Scalar Float where
  decLE := inferInstance
  decLT := inferInstance
  zero := 0.0
  one := 1.0
  abs := Float.abs
  sqrt := Float.sqrt
  isFinite := Float.isFinite
  ofCount := Float.ofNat

/-- The precision of doubles; halving one 1100 times is more than any double needs. -/
def Precision.double : Precision Float := Precision.measured 1100

end BoxDescent

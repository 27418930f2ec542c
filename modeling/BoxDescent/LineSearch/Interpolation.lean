import BoxDescent.Scalar

/-!
This module contains the trial steps that a line search derives from what it has measured: minimisers of
polynomials through the last values, kept away from both ends of the interval they may lie in.
-/

namespace BoxDescent.LineSearch

open Scalar

variable {α : Type} [Scalar α]

def quadraticMinimiser (f₀ slope step f : α) : α :=
  -0.5 * step * slope / ((f - f₀) / step - slope)

def cubicMinimiser (f₀ slope step f previous previousValue : α) : α :=
  let rise := f - f₀ - step * slope
  let previousRise := previousValue - f₀ - previous * slope
  let a := (rise / square step - previousRise / square previous) / (step - previous)
  let b := (-previous * rise / square step + step * previousRise / square previous)
    / (step - previous)
  if equal a 0 then -slope / (2.0 * b)
  else (-b + sqrt (pickMax (b * b - 3.0 * a * slope) 0)) / (3.0 * a)

def shorten (step suggestion : α) : α :=
  pickMax (pickMin suggestion (0.5 * step)) (0.1 * step)

/-- The increment in a bracket by the quadratic with slope `slope` and value `f` at its low end and value
`g` at its high end, at least a fifth and at most four fifths of the width. -/
def bracketIncrement (slope width f g : α) : α :=
  let suggestion := -0.5 * slope * square width / (g - f - slope * width)
  pickMin (pickMax suggestion (0.2 * width)) (0.8 * width)

end BoxDescent.LineSearch

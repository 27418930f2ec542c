/-!
This module contains everything that can go wrong, by cause. An `Error` is a fault in the shape of some
data, an argument that was refused, a breakdown of the method at particular numbers, or fuel that ran
out. What the causes look like as sentences is in `BoxDescent.Report.Failure`.
-/

namespace BoxDescent

inductive Side where
  | lower
  | upper
  deriving DecidableEq

inductive Fault (α : Type) where
  | outOfRange
  | mismatch
  | notIndexable
  | overflow
  | zeroSlope
  -- A gradient of another length than the point shows where it is first used.
  | gradientLength (g : Array α)

inductive Refusal (α : Type) where
  | systemShape (shape : List Nat) (rows : Nat)
  | startShape
  | boundShape (side : Side) (shape : List Nat) (size : Nat)
  | boundsCrossed
  | startOutside
  | iterationBudget
  | conditionOrder (sufficientDecrease curvature : α)
  | displacementTolerance
  | maxStep
  | matrixShape (shape : List Nat)
  | matrixAsymmetric
  | linearTermShape (shape : List Nat) (size : Nat)
  | derivativesTwice
  | gradientMissing
  | negativeRestarts

inductive DecreaseSite where
  | diagonal
  | scalar
  deriving DecidableEq

inductive SolveStage where
  | forward
  | backward
  deriving DecidableEq

/-- A state in which the method cannot go on, with the numbers that explain it. -/
inductive Breakdown (α : Type) where
  | ascent (slope : α)
  | infeasibleStep (step maxFeasibleStep objective initial slope : α)
  | decrease (site : DecreaseSite) (index : Nat) (values : List (String × α))
  | direction (stage : SolveStage) (index : Nat) (rhs diagonal : α)
  | offBounds (index : Int) (value : α) (lower upper : Option α)
  | iterationLimit (restarts : Nat) (lastIterate : Array α)

inductive Error (α : Type) where
  | fault (fault : Fault α)
  | refusal (refusal : Refusal α)
  | breakdown (breakdown : Breakdown α)
  -- The fuel of a loop ran out, which says nothing about the input.
  | outOfFuel

end BoxDescent

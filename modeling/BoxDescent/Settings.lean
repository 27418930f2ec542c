import BoxDescent.Scalar
import BoxDescent.Error
import BoxDescent.LineSearch.Ray

/-!
This module contains the settings of the solver and the conditions that they have to meet.
-/

namespace BoxDescent

structure Settings (α : Type) where
  maxIterations : Int
  sufficientDecrease : α
  curvature : α
  displacementTolerance : α
  maxStep : α

namespace Settings

variable {α : Type} [Scalar α]

def default : Settings α :=
  { maxIterations := 200
    sufficientDecrease := 1e-4
    curvature := 0.9
    displacementTolerance := 1e-6
    maxStep := 100.0 }

/-- The first condition that the settings violate. -/
def check (s : Settings α) : Except (Refusal α) Unit :=
  if s.maxIterations ≤ 0 then .error .iterationBudget
  else if ¬(0 < s.sufficientDecrease ∧ s.sufficientDecrease < s.curvature ∧ s.curvature < 1) then
    .error (.conditionOrder s.sufficientDecrease s.curvature)
  else if s.displacementTolerance ≤ 0 then .error .displacementTolerance
  else if s.maxStep ≤ 0 then .error .maxStep
  else .ok ()

def Valid (s : Settings α) : Prop :=
  0 < s.maxIterations ∧ 0 < s.sufficientDecrease ∧ s.sufficientDecrease < s.curvature ∧
    s.curvature < 1 ∧ ¬s.displacementTolerance ≤ 0 ∧ ¬s.maxStep ≤ 0

def budget (s : Settings α) : Nat :=
  s.maxIterations.toNat

def searchParameters (s : Settings α) (precision : Precision α) : LineSearch.Parameters α :=
  { sufficientDecrease := s.sufficientDecrease
    curvature := s.curvature
    displacementTolerance := s.displacementTolerance
    precision }

end Settings

end BoxDescent

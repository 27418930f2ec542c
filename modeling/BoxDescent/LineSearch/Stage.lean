import BoxDescent.LineSearch.Ray
import BoxDescent.LineSearch.Interpolation

/-!
This module contains the stages of a line search. At every stage the objective is wanted at one step,
`Stage.step`; `Stage.advance` takes its value there and answers the next stage or the end. There are
three stages:
- a trial is shortened until the objective is finite and decreases sufficiently;
- if it does so at once, but the slope is still too steep, the step is doubled;
- once a step that is too short and one that is too long are known, the bracket between them shrinks.
-/

namespace BoxDescent.LineSearch

variable {α : Type} [Scalar α] {n : Nat}

inductive FirstValue (α : Type) where
  | pending
  | known (value : α)
  -- The objective was not finite there, or at a later trial, or at the origin.
  | unusable

structure Trial (α : Type) where
  count : Nat
  step : α
  previous : α
  previousValue : α
  first : FirstValue α

structure Extrapolation (α : Type) where
  low : α
  lowValue : α
  lowSlope : α
  step : α

structure Bracket (α : Type) where
  low : α
  lowValue : α
  -- At the low end, or at the last step if that ended the search.
  slope : α
  width : α
  highValue : α
  last : α
  lastValue : α

inductive Stage (α : Type) where
  | trial (t : Trial α)
  | extrapolation (e : Extrapolation α)
  | bracket (b : Bracket α) (increment : α)

inductive Ending (α : Type) where
  | accepted (step value : α)
  | noProgress

def Stage.step : Stage α → α
  | .trial t => t.step
  | .extrapolation e => e.step
  | .bracket b increment => b.low + increment

abbrev Next (α : Type) := Stage α ⊕ Ending α

def firstTrial (r : Ray α n) : Trial α :=
  let step := match r.reach with
    | none => 1
    | some reach => Scalar.pickMin reach 1
  { count := 0, step, previous := 0, previousValue := r.value, first := .pending }

def Bracket.next (r : Ray α n) (b : Bracket α) : Run α n (Next α) :=
  if b.slope < r.curvatureSlope then
    if b.width ≥ r.minStep then do
      let increment := bracketIncrement b.slope b.width b.lowValue b.highValue
      r.checkFeasible (b.low + increment) b.lowValue
      return .inl (.bracket b increment)
    else do
      note .lowEndTaken
      return .inr (.accepted b.low b.lowValue)
  else do
    note (.conditionsHold b.last)
    return .inr (.accepted b.last b.lastValue)

def Bracket.start (r : Ray α n) (low lowValue slope high highValue last lastValue : α) :
    Run α n (Next α) := do
  note (.bracketing low high)
  Bracket.next r { low, lowValue, slope, width := high - low, highValue, last, lastValue }

def Bracket.advance (r : Ray α n) (b : Bracket α) (increment f : α) : Run α n (Next α) := do
  let step := b.low + increment
  if f ≤ r.threshold step then
    let slope ← r.slopeAt step
    if slope < r.curvatureSlope then
      Bracket.next r { b with
        low := step, lowValue := f, slope, width := b.width - increment, last := step, lastValue := f }
    else
      Bracket.next r { b with slope, last := step, lastValue := f }
  else
    Bracket.next r { b with width := increment, highValue := f, last := step, lastValue := f }

def Ray.extrapolationLimit (r : Ray α n) : Option α :=
  -- The longest allowed step only counts if it is a number.
  match r.reach, r.maxStep with
  | none, limit => limit.filter Scalar.isFinite
  | some reach, none => some reach
  | some reach, some limit => some (Scalar.pickMin reach limit)

def Extrapolation.next (r : Ray α n) (low lowValue lowSlope : α) : Run α n (Next α) :=
  if below low r.extrapolationLimit then do
    let step := capped (2.0 * low) r.extrapolationLimit
    note (.extrapolating step)
    return .inl (.extrapolation { low, lowValue, lowSlope, step })
  else Bracket.start r low lowValue lowSlope low lowValue low lowValue

def Extrapolation.overflows (r : Ray α n) (e : Extrapolation α) : Bool :=
  -- A step that was cut off at the limit is never too wide.
  let width := e.step - e.low
  !decide (e.step < 2.0 * e.low) && decide (e.lowSlope < r.curvatureSlope) && decide (width ≥ r.minStep)
    && Scalar.squareOverflows width

def Extrapolation.advance (r : Ray α n) (e : Extrapolation α) (f : α) : Run α n (Next α) := do
  if f ≤ r.threshold e.step then
    let slope ← r.slopeAt e.step
    if slope ≥ r.curvatureSlope then
      note (.conditionsHold e.step)
      return .inr (.accepted e.step f)
    else Extrapolation.next r e.step f slope
  else if e.overflows r then do
    note (.bracketing e.low e.step)
    Logged.fail (.fault .overflow)
  else Bracket.start r e.low e.lowValue e.lowSlope e.step f e.step f

def Trial.giveUp (r : Ray α n) (t : Trial α) : Run α n (Next α) :=
  match t.first with
  | .known value =>
    if value < r.value then do
      let step := (firstTrial r).step
      note (.fullStepTaken step)
      return .inr (.accepted step value)
    else do
      note .noDecrease
      return .inr .noProgress
  | _ => do
    note .noDecrease
    return .inr .noProgress

def Trial.shorter (r : Ray α n) (t : Trial α) (f : α) : Trial α :=
  let suggestion :=
    if t.count = 0 then quadraticMinimiser r.value r.slope t.step f
    else cubicMinimiser r.value r.slope t.step f t.previous t.previousValue
  let first := match t.first with
    | .pending => if Scalar.isFinite r.value then .known f else .unusable
    | first => first
  { count := t.count + 1
    step := shorten t.step suggestion
    previous := t.step
    previousValue := f
    first }

def Trial.advance (r : Ray α n) (t : Trial α) (f : α) : Run α n (Next α) := do
  if !Scalar.isFinite f then
    let step := t.step * 0.5
    if step ≤ r.parameters.precision.epsilon then
      note .notFiniteNearby
      return .inr .noProgress
    else
      note (.shrinking step)
      return .inl (.trial { t with step, first := .unusable })
  else
    note (.trialValue t.count f (r.threshold t.step))
    if f ≤ r.threshold t.step then
      let slope ← r.slopeAt t.step
      if slope ≥ r.curvatureSlope then
        note (.conditionsHold t.step)
        return .inr (.accepted t.step f)
      else if t.count > 0 then
        Bracket.start r t.step f slope t.previous t.previousValue t.step f
      else Extrapolation.next r t.step f slope
    else if t.step < r.minStep then t.giveUp r
    else
      let shorter := t.shorter r f
      r.checkFeasible shorter.step f
      note (.trying shorter.count shorter.step)
      return .inl (.trial shorter)

def Stage.advance (r : Ray α n) (s : Stage α) (f : α) : Run α n (Next α) :=
  match s with
  | .trial t => t.advance r f
  | .extrapolation e => e.advance r f
  | .bracket b increment => b.advance r increment f

/-- Goes through the stages, evaluating the objective at most `fuel` times. -/
def runStages (r : Ray α n) (fuel : Nat) (s : Stage α) : Run α n (Ending α) :=
  match fuel with
  | 0 => .fail .outOfFuel
  | fuel + 1 => do
    let f ← r.valueAt s.step
    match ← s.advance r f with
    | .inl s => runStages r fuel s
    | .inr ending => return ending

end BoxDescent.LineSearch

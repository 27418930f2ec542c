import Mathlib.Logic.Basic
import BoxDescent.Proofs.LineSearch.Reach
import BoxDescent.Proofs.LineSearch.Stage

/-!
This module contains what a line search divides by. An arithmetic is given another division, and each part of
the search does the same with it, provided that both divisions agree for the divisors of that part
(`Divides`). So the divisors that are listed here are all that there are.
-/

namespace BoxDescent

@[reducible]
def Scalar.withDivision {α : Type} (S : Scalar α) (div : α → α → α) : Scalar α :=
  { S with div }

variable {α : Type} [S : Scalar α] {n : Nat}

/-- Quotients by `d` are not affected by the other division. -/
def Divides (div : α → α → α) (d : α) : Prop :=
  ∀ a, div a d = a / d

namespace LineSearch

open Scalar

variable {div : α → α → α}

section Interpolation

def quadraticDivisors (f₀ slope step f : α) : List α :=
  [step, (f - f₀) / step - slope]

def cubicDivisors (f₀ slope step f previous previousValue : α) : List α :=
  let rise := f - f₀ - step * slope
  let previousRise := previousValue - f₀ - previous * slope
  let a := (rise / square step - previousRise / square previous) / (step - previous)
  let b := (-previous * rise / square step + step * previousRise / square previous)
    / (step - previous)
  [square step, square previous, step - previous, if equal a 0 then 2.0 * b else 3.0 * a]

def bracketDivisor (slope width f g : α) : α :=
  g - f - slope * width

variable {f₀ slope step f g previous previousValue width : α}

theorem quadraticMinimiser_congr (h : ∀ d ∈ quadraticDivisors f₀ slope step f, Divides div d) :
    @quadraticMinimiser α (S.withDivision div) f₀ slope step f = quadraticMinimiser f₀ slope step f := by
  simp only [quadraticDivisors, List.forall_mem_cons] at h
  obtain ⟨hstep, hrise, _⟩ := h
  show div (-0.5 * step * slope) (div (f - f₀) step - slope) = _
  rw [hstep, hrise]
  rfl

theorem cubicMinimiser_congr (h : ∀ d ∈ cubicDivisors f₀ slope step f previous previousValue, Divides div d) :
    @cubicMinimiser α (S.withDivision div) f₀ slope step f previous previousValue =
      cubicMinimiser f₀ slope step f previous previousValue := by
  simp only [cubicDivisors, List.forall_mem_cons] at h
  obtain ⟨hstep, hprevious, hwidth, hcoefficient, _⟩ := h
  show (let rise := f - f₀ - step * slope
    let previousRise := previousValue - f₀ - previous * slope
    let a := div (div rise (square step) - div previousRise (square previous)) (step - previous)
    let b := div (div (-previous * rise) (square step) + div (step * previousRise) (square previous))
      (step - previous)
    if equal a 0 then div (-slope) (2.0 * b)
    else div (-b + sqrt (pickMax (b * b - 3.0 * a * slope) 0)) (3.0 * a)) = _
  dsimp only
  rw [hstep, hprevious, hstep, hprevious, hwidth, hwidth]
  unfold cubicMinimiser
  dsimp only
  split
  . next ha =>
    rw [if_pos ha] at hcoefficient
    exact hcoefficient _
  . next ha =>
    rw [if_neg ha] at hcoefficient
    exact hcoefficient _

theorem bracketIncrement_congr (h : Divides div (bracketDivisor slope width f g)) :
    @bracketIncrement α (S.withDivision div) slope width f g = bracketIncrement slope width f g := by
  show pickMin (pickMax (div (-0.5 * slope * square width) (bracketDivisor slope width f g)) (0.2 * width))
    (0.8 * width) = _
  rw [h]
  rfl

end Interpolation

section Stages

variable {r : Ray α n}

def Trial.divisors (r : Ray α n) (t : Trial α) (f : α) : List α :=
  if t.count = 0 then quadraticDivisors r.value r.slope t.step f
  else cubicDivisors r.value r.slope t.step f t.previous t.previousValue

def Bracket.divisor (b : Bracket α) : α :=
  bracketDivisor b.slope b.width b.lowValue b.highValue

theorem Trial.shorter_congr {t : Trial α} {f : α} (h : ∀ d ∈ t.divisors r f, Divides div d) :
    @Trial.shorter α (S.withDivision div) n r t f = t.shorter r f := by
  have hsuggestion : (if t.count = 0 then
      @quadraticMinimiser α (S.withDivision div) r.value r.slope t.step f
      else @cubicMinimiser α (S.withDivision div) r.value r.slope t.step f t.previous t.previousValue) =
      if t.count = 0 then quadraticMinimiser r.value r.slope t.step f
      else cubicMinimiser r.value r.slope t.step f t.previous t.previousValue := by
    unfold Trial.divisors at h
    split
    . next hcount =>
      rw [if_pos hcount] at h
      exact quadraticMinimiser_congr h
    . next hcount =>
      rw [if_neg hcount] at h
      exact cubicMinimiser_congr h
  unfold Trial.shorter
  dsimp only
  rw [hsuggestion]
  rfl

theorem Bracket.next_congr {b : Bracket α}
    (h : b.slope < r.curvatureSlope → b.width ≥ r.minStep → Divides div b.divisor) :
    @Bracket.next α (S.withDivision div) n r b = b.next r := by
  unfold Bracket.next
  apply if_ctx_congr Iff.rfl
  . intro hsteep
    apply if_ctx_congr Iff.rfl
    . intro hwide
      rw [bracketIncrement_congr (h hsteep hwide)]
      rfl
    . exact fun _ => rfl
  . exact fun _ => rfl

theorem Bracket.start_congr {low lowValue slope high highValue last lastValue : α}
    (h : slope < r.curvatureSlope → high - low ≥ r.minStep →
      Divides div (Bracket.between low lowValue slope high highValue last lastValue).divisor) :
    @Bracket.start α (S.withDivision div) n r low lowValue slope high highValue last lastValue =
      Bracket.start r low lowValue slope high highValue last lastValue := by
  unfold Bracket.start
  apply bind_congr
  intro _
  exact Bracket.next_congr h

theorem Extrapolation.next_congr {low lowValue lowSlope : α}
    (h : lowSlope < r.curvatureSlope → low - low ≥ r.minStep →
      Divides div (Bracket.between low lowValue lowSlope low lowValue low lowValue).divisor) :
    @Extrapolation.next α (S.withDivision div) n r low lowValue lowSlope =
      Extrapolation.next r low lowValue lowSlope := by
  unfold Extrapolation.next
  apply if_ctx_congr Iff.rfl
  . exact fun _ => rfl
  . exact fun _ => Bracket.start_congr h

theorem Ray.fixBlocking_congr
    (h : ∀ i, r.blocking = some i → ∃ w, r.activeSet.working.bound i (towards r.direction[i]) = some w)
    (step : α) (x : Vector α n) :
    @Ray.fixBlocking α (S.withDivision div) n r step x = r.fixBlocking step x := by
  unfold Ray.fixBlocking
  cases hblocking : r.blocking with
  | none => rfl
  | some i =>
    obtain ⟨w, hw⟩ := h i hblocking
    apply if_ctx_congr Iff.rfl
    . exact fun _ => rfl
    . intro _
      show (let bound := (r.activeSet.working.bound i (towards r.direction[i])).getD (div 0 0)
        do
          note (.fixedByStep i.val bound r.origin[i])
          return (x.set i bound i.isLt, r.activeSet.fix i (towards r.direction[i]), r.newlyFixed ++ [i])) =
        (let bound := (r.activeSet.working.bound i (towards r.direction[i])).getD Scalar.undefined
        do
          note (.fixedByStep i.val bound r.origin[i])
          return (x.set i bound i.isLt, r.activeSet.fix i (towards r.direction[i]), r.newlyFixed ++ [i]))
      rw [hw]
      rfl

theorem Ray.finish_congr
    (h : ∀ i, r.blocking = some i → ∃ w, r.activeSet.working.bound i (towards r.direction[i]) = some w)
    (ending : Ending α) : @Ray.finish α (S.withDivision div) n r ending = r.finish ending := by
  cases ending with
  | noProgress => rfl
  | accepted step value =>
    unfold Ray.finish
    dsimp only
    rw [Ray.fixBlocking_congr h]
    rfl

end Stages

section Aim

variable {direction x grad : Vector α n} {fixed : Vector Bool n} {zero maxNorm : α}

def ScaleDivides (div : α → α → α) (direction : Vector α n) (fixed : Vector Bool n) (maxNorm : α) : Prop :=
  normOver (unmasked fixed) direction > maxNorm ∨ normOver (unmasked fixed) direction > 0 →
    Divides div (normOver (unmasked fixed) direction)

theorem scale_congr (h : ScaleDivides div direction fixed maxNorm) :
    @scale α (S.withDivision div) n direction fixed maxNorm = scale direction fixed maxNorm := by
  unfold scale
  dsimp only
  apply if_ctx_congr Iff.rfl
  . intro hlong
    show Scaled.mk (Vector.ofFn fun i : Fin n => if fixed[i] then direction[i]
      else direction[i] * div maxNorm (normOver (unmasked fixed) direction)) _ _ = _
    rw [h (Or.inl hlong)]
    rfl
  . intro _
    apply if_ctx_congr Iff.rfl
    . intro hpos
      show Scaled.mk _ _ (some (div maxNorm (normOver (unmasked fixed) direction))) = _
      rw [h (Or.inr hpos)]
      rfl
    . exact fun _ => rfl

theorem orient_congr (h : ScaleDivides div direction fixed maxNorm) (f : α) :
    @orient α (S.withDivision div) n zero fixed f grad direction maxNorm =
      orient zero fixed f grad direction maxNorm := by
  unfold orient
  dsimp only
  rw [scale_congr h]
  rfl

theorem relativeChange_congr (h : ∀ i : Fin n, Divides div (maximum (abs x[i]) 1)) (free : List (Fin n)) :
    @relativeChange α (S.withDivision div) n direction x free = relativeChange direction x free := by
  show (maximumOver free fun i => div (abs direction[i]) (maximum (abs x[i]) 1)) = _
  unfold relativeChange
  congr 1
  funext i
  exact h i _

theorem Heading.minStep?_congr {heading : Heading α n} {parameters : Parameters α}
    (hx : ∀ i : Fin n, Divides div (maximum (abs x[i]) 1))
    (h : ∀ change, ¬change ≤ parameters.precision.zero → Divides div change) :
    @Heading.minStep? α (S.withDivision div) n heading parameters fixed x =
      heading.minStep? parameters fixed x := by
  unfold Heading.minStep?
  dsimp only
  rw [relativeChange_congr hx]
  apply if_ctx_congr Iff.rfl
  . exact fun _ => rfl
  . intro hmoves
    show pure (some (div parameters.displacementTolerance _)) = _
    rw [h _ hmoves]

theorem Reach.look_congr {p : Precision α} (h : ∀ d : α, d < -p.epsilon ∨ d > p.epsilon → Divides div d)
    (s : Reach α n) (i : Fin n) :
    @Reach.look α (S.withDivision div) n p direction s i = Reach.look p direction s i := by
  have hheading : @heading α (S.withDivision div) n s.activeSet.working p.epsilon direction[i] i =
      heading s.activeSet.working p.epsilon direction[i] i := rfl
  unfold Reach.look
  rw [hheading]
  cases hh : heading s.activeSet.working p.epsilon direction[i] i with
  | none => rfl
  | some headed =>
    obtain ⟨side, bound⟩ := headed
    have hd : direction[i] < -p.epsilon ∨ direction[i] > p.epsilon :=
      (direction_of_heading hh).imp And.right And.right
    have hratio : @HDiv.hDiv α α α (@instHDiv α (S.withDivision div).toDiv) (bound - s.x[i]) direction[i] =
        (bound - s.x[i]) / direction[i] := h _ hd _
    dsimp only
    rw [hratio]
    rfl

theorem reach_congr {p : Precision α} (h : ∀ d : α, d < -p.epsilon ∨ d > p.epsilon → Divides div d)
    (a : ActiveSet α n) (is : List (Fin n)) :
    @reach α (S.withDivision div) n p direction x a is = reach p direction x a is := by
  have hlook : @Reach.look α (S.withDivision div) n p direction = Reach.look p direction := by
    funext s i
    exact Reach.look_congr h s i
  unfold reach
  rw [hlook]

theorem aim_congr {problem : Problem α n} {parameters : Parameters α} {a : ActiveSet α n} {f : α}
    (hscale : ScaleDivides div direction a.fixed maxNorm)
    (hx : ∀ i : Fin n, Divides div (maximum (abs x[i]) 1))
    (hchange : ∀ change, ¬change ≤ parameters.precision.zero → Divides div change)
    (hdirection : ∀ d : α, d < -parameters.precision.epsilon ∨ d > parameters.precision.epsilon →
      Divides div d) :
    @aim α (S.withDivision div) n problem parameters a x f grad direction maxNorm =
      aim problem parameters a x f grad direction maxNorm := by
  unfold aim
  rw [orient_congr hscale]
  apply bind_congr
  intro oriented
  apply if_ctx_congr Iff.rfl
  . exact fun _ => rfl
  . intro _
    rw [Heading.minStep?_congr hx hchange]
    apply bind_congr
    intro minStep
    cases minStep with
    | none => rfl
    | some minStep =>
      dsimp only
      rw [reach_congr hdirection]
      rfl

end Aim

end LineSearch

end BoxDescent

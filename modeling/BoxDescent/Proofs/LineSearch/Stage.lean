import BoxDescent.LineSearch.Stage
import BoxDescent.Proofs.Problem
import BoxDescent.Proofs.Vector

/-!
This module contains what a line search can do at a stage, whatever the objective and its gradient answer and
however the arithmetic rounds: `Stage.Advances` lists all that it may go on with or end in, and
`Ray.Reaches` the stages that it gets to. Everything that is said of the stages is derived from these two.
-/

namespace BoxDescent

def Error.isOfSearch {α : Type} : Error α → Bool
  | .fault _ => true
  | .breakdown (.ascent _) => true
  | .breakdown (.infeasibleStep ..) => true
  | .outOfFuel => true
  | _ => false

namespace LineSearch

variable {α : Type} [Scalar α] {n : Nat}

section Point

variable {r : Ray α n} {i : Fin n}

theorem Ray.point_of_fixed (hi : r.fixed[i] = true) (step : α) :
    (r.point step)[i] = r.origin[i] := by
  unfold Ray.point
  rw [getElem_vectorOfFn, if_pos hi]

theorem Ray.point_of_free (hi : r.fixed[i] = false) (step : α) :
    (r.point step)[i] = r.activeSet.working.clip i (r.origin[i] + step * r.direction[i]) := by
  unfold Ray.point
  rw [getElem_vectorOfFn, if_neg]
  rw [hi]
  exact Bool.false_ne_true

end Point

section Values

def Ray.HasValue (r : Ray α n) (step v : α) : Prop :=
  r.problem.objective (r.point step) = .ok v

def Ray.HasSlope (r : Ray α n) (step s : α) : Prop :=
  ∃ g, r.problem.gradient (r.point step) = .ok g ∧ dotOver r.free g r.direction = s

def Ray.Decreases (r : Ray α n) (step v : α) : Prop :=
  r.HasValue step v ∧ v ≤ r.threshold step

def Ray.Fails (r : Ray α n) (step v : α) : Prop :=
  r.HasValue step v ∧ ¬v ≤ r.threshold step

variable {r : Ray α n} {E : Error α → Prop} (hE : r.problem.Tolerates E)
include hE

theorem Ray.valueAt_hasValue (step : α) :
    (r.valueAt step).Meets (fun _ => True) E (r.HasValue step) :=
  hE.evalObjective _

theorem Ray.slopeAt_hasSlope (step : α) :
    (r.slopeAt step).Meets (fun _ => True) E (r.HasSlope step) := by
  unfold Ray.slopeAt
  apply Logged.Meets.bind (hE.evalGradient _)
  intro g hg
  exact Logged.meets_pure ⟨g, hg, rfl⟩

end Values

def Bracket.between (low lowValue slope high highValue last lastValue : α) : Bracket α :=
  { low, lowValue, slope, width := high - low, highValue, last, lastValue }

inductive Bracket.Continues (r : Ray α n) (b : Bracket α) : Next α → Prop where
  | inside : b.slope < r.curvatureSlope → b.width ≥ r.minStep →
      Continues r b (.inl (.bracket b (bracketIncrement b.slope b.width b.lowValue b.highValue)))
  | lowEnd : b.slope < r.curvatureSlope → ¬b.width ≥ r.minStep →
      Continues r b (.inr (.accepted b.low b.lowValue))
  | last : ¬b.slope < r.curvatureSlope → Continues r b (.inr (.accepted b.last b.lastValue))

inductive Extrapolation.Continues (r : Ray α n) (low lowValue lowSlope : α) : Next α → Prop where
  | double : below low r.extrapolationLimit = true → Continues r low lowValue lowSlope
      (.inl (.extrapolation { low, lowValue, lowSlope, step := capped (2.0 * low) r.extrapolationLimit }))
  | atLimit {next : Next α} : below low r.extrapolationLimit = false →
      (Bracket.between low lowValue lowSlope low lowValue low lowValue).Continues r next →
      Continues r low lowValue lowSlope next

inductive Trial.GivesUp (r : Ray α n) (t : Trial α) : Ending α → Prop where
  | fullStep {value : α} : t.first = .known value → value < r.value →
      GivesUp r t (.accepted (firstTrial r).step value)
  | noDecrease : GivesUp r t .noProgress

inductive Stage.Advances (r : Ray α n) : Stage α → α → Next α → Prop where
  | notFinite {t : Trial α} {f : α} : Scalar.isFinite f = false →
      t.step * 0.5 ≤ r.parameters.precision.epsilon → Advances r (.trial t) f (.inr .noProgress)
  | halved {t : Trial α} {f : α} : Scalar.isFinite f = false →
      ¬t.step * 0.5 ≤ r.parameters.precision.epsilon →
      Advances r (.trial t) f (.inl (.trial { t with step := t.step * 0.5, first := .unusable }))
  | trialTaken {t : Trial α} {f slope : α} : f ≤ r.threshold t.step → r.HasSlope t.step slope →
      slope ≥ r.curvatureSlope → Advances r (.trial t) f (.inr (.accepted t.step f))
  | trialBracketed {t : Trial α} {f slope : α} {next : Next α} : f ≤ r.threshold t.step →
      r.HasSlope t.step slope → ¬slope ≥ r.curvatureSlope → t.count > 0 →
      (Bracket.between t.step f slope t.previous t.previousValue t.step f).Continues r next →
      Advances r (.trial t) f next
  | trialExtended {t : Trial α} {f slope : α} {next : Next α} : f ≤ r.threshold t.step →
      r.HasSlope t.step slope → ¬slope ≥ r.curvatureSlope → ¬t.count > 0 →
      Extrapolation.Continues r t.step f slope next → Advances r (.trial t) f next
  | gaveUp {t : Trial α} {f : α} {ending : Ending α} : ¬f ≤ r.threshold t.step → t.step < r.minStep →
      t.GivesUp r ending → Advances r (.trial t) f (.inr ending)
  | shortened {t : Trial α} {f : α} : Scalar.isFinite f = true → ¬f ≤ r.threshold t.step →
      ¬t.step < r.minStep → Advances r (.trial t) f (.inl (.trial (t.shorter r f)))
  | extrapolationTaken {e : Extrapolation α} {f slope : α} : f ≤ r.threshold e.step →
      r.HasSlope e.step slope → slope ≥ r.curvatureSlope →
      Advances r (.extrapolation e) f (.inr (.accepted e.step f))
  | extended {e : Extrapolation α} {f slope : α} {next : Next α} : f ≤ r.threshold e.step →
      r.HasSlope e.step slope → ¬slope ≥ r.curvatureSlope →
      Extrapolation.Continues r e.step f slope next → Advances r (.extrapolation e) f next
  | extrapolationBracketed {e : Extrapolation α} {f : α} {next : Next α} : ¬f ≤ r.threshold e.step →
      (Bracket.between e.low e.lowValue e.lowSlope e.step f e.step f).Continues r next →
      Advances r (.extrapolation e) f next
  | raised {b : Bracket α} {increment f slope : α} {next : Next α} :
      f ≤ r.threshold (b.low + increment) → r.HasSlope (b.low + increment) slope →
      slope < r.curvatureSlope →
      Bracket.Continues r { b with low := b.low + increment, lowValue := f, slope
                                   width := b.width - increment, last := b.low + increment
                                   lastValue := f } next →
      Advances r (.bracket b increment) f next
  | bracketTaken {b : Bracket α} {increment f slope : α} : f ≤ r.threshold (b.low + increment) →
      r.HasSlope (b.low + increment) slope → ¬slope < r.curvatureSlope →
      Advances r (.bracket b increment) f (.inr (.accepted (b.low + increment) f))
  | lowered {b : Bracket α} {increment f : α} {next : Next α} : ¬f ≤ r.threshold (b.low + increment) →
      Bracket.Continues r { b with width := increment, highValue := f, last := b.low + increment
                                   lastValue := f } next →
      Advances r (.bracket b increment) f next

/-- The stages of a search of a ray. -/
inductive Ray.Reaches (r : Ray α n) : Stage α → Prop where
  | first : r.Reaches (.trial (firstTrial r))
  | next {s s' : Stage α} {f : α} : r.Reaches s → r.HasValue s.step f →
      (s.advance r f).result = .ok (.inl s') → r.Reaches s'

section Advance

variable {r : Ray α n} {L : Event α n → Prop} {E : Error α → Prop} (hnote : ∀ m, L (.note m))
  (hE : ∀ e : Error α, e.isOfSearch = true → E e)
include hnote hE

omit hnote in
theorem Ray.checkFeasible_meets (step f : α) : (r.checkFeasible step f).Meets L E fun _ => True := by
  unfold Ray.checkFeasible
  split
  . exact Logged.meets_pure trivial
  . split
    . exact Logged.meets_fail (hE _ rfl)
    . exact Logged.meets_pure trivial

theorem Bracket.next_continues (b : Bracket α) : (b.next r).Meets L E (b.Continues r) := by
  unfold Bracket.next
  split
  . next hsteep =>
    split
    . next hwide =>
      apply Logged.Meets.bind (r.checkFeasible_meets hE _ _)
      intro _ _
      exact Logged.meets_pure (.inside hsteep hwide)
    . next hnarrow => exact meets_note_bind (hnote _) (Logged.meets_pure (.lowEnd hsteep hnarrow))
  . next hflat => exact meets_note_bind (hnote _) (Logged.meets_pure (.last hflat))

theorem Bracket.start_continues (low lowValue slope high highValue last lastValue : α) :
    (Bracket.start r low lowValue slope high highValue last lastValue).Meets L E
      ((Bracket.between low lowValue slope high highValue last lastValue).Continues r) := by
  unfold Bracket.start
  exact meets_note_bind (hnote _) (Bracket.next_continues hnote hE _)

theorem Extrapolation.next_continues (low lowValue lowSlope : α) :
    (Extrapolation.next r low lowValue lowSlope).Meets L E
      (Extrapolation.Continues r low lowValue lowSlope) := by
  unfold Extrapolation.next
  split
  . next hbelow => exact meets_note_bind (hnote _) (Logged.meets_pure (.double hbelow))
  . next hlimit =>
    apply (Bracket.start_continues hnote hE ..).imp
    intro next hnext
    exact .atLimit (Bool.eq_false_iff.mpr hlimit) hnext

omit hE in
theorem Trial.giveUp_givesUp (t : Trial α) :
    (t.giveUp r).Meets L E fun next => ∃ ending, next = .inr ending ∧ t.GivesUp r ending := by
  unfold Trial.giveUp
  split
  . next value hvalue =>
    split
    . next hlt => exact meets_note_bind (hnote _) (Logged.meets_pure ⟨_, rfl, .fullStep hvalue hlt⟩)
    . exact meets_note_bind (hnote _) (Logged.meets_pure ⟨_, rfl, .noDecrease⟩)
  . exact meets_note_bind (hnote _) (Logged.meets_pure ⟨_, rfl, .noDecrease⟩)

variable (hslope : ∀ step, (r.slopeAt step).Meets L E (r.HasSlope step))
include hslope

theorem Trial.advance_advances (t : Trial α) (f : α) :
    (t.advance r f).Meets L E ((Stage.trial t).Advances r f) := by
  unfold Trial.advance
  split
  . next hfinite =>
    rw [Bool.not_eq_true'] at hfinite
    dsimp only
    split
    . next hsmall => exact meets_note_bind (hnote _) (Logged.meets_pure (.notFinite hfinite hsmall))
    . next hlarge => exact meets_note_bind (hnote _) (Logged.meets_pure (.halved hfinite hlarge))
  . next hfinite =>
    rw [Bool.not_eq_true', Bool.not_eq_false] at hfinite
    apply meets_note_bind (hnote _)
    split
    . next hle =>
      apply Logged.Meets.bind (hslope _)
      intro slope hs
      split
      . next hflat => exact meets_note_bind (hnote _) (Logged.meets_pure (.trialTaken hle hs hflat))
      . next hsteep =>
        split
        . next hcount =>
          apply (Bracket.start_continues hnote hE ..).imp
          intro next hnext
          exact .trialBracketed hle hs hsteep hcount hnext
        . next hcount =>
          apply (Extrapolation.next_continues hnote hE ..).imp
          intro next hnext
          exact .trialExtended hle hs hsteep hcount hnext
    . next hgt =>
      split
      . next hmin =>
        apply (Trial.giveUp_givesUp hnote t).imp
        rintro _ ⟨ending, rfl, hending⟩
        exact .gaveUp hgt hmin hending
      . next hmin =>
        apply Logged.Meets.bind (r.checkFeasible_meets hE _ _)
        intro _ _
        exact meets_note_bind (hnote _) (Logged.meets_pure (.shortened hfinite hgt hmin))

theorem Extrapolation.advance_advances (e : Extrapolation α) (f : α) :
    (e.advance r f).Meets L E ((Stage.extrapolation e).Advances r f) := by
  unfold Extrapolation.advance
  split
  . next hle =>
    apply Logged.Meets.bind (hslope _)
    intro slope hs
    split
    . next hflat => exact meets_note_bind (hnote _) (Logged.meets_pure (.extrapolationTaken hle hs hflat))
    . next hsteep =>
      apply (Extrapolation.next_continues hnote hE ..).imp
      intro next hnext
      exact .extended hle hs hsteep hnext
  . next hgt =>
    split
    . exact meets_note_bind (hnote _) (Logged.meets_fail (hE _ rfl))
    . apply (Bracket.start_continues hnote hE ..).imp
      intro next hnext
      exact .extrapolationBracketed hgt hnext

theorem Bracket.advance_advances (b : Bracket α) (increment f : α) :
    (b.advance r increment f).Meets L E ((Stage.bracket b increment).Advances r f) := by
  unfold Bracket.advance
  dsimp only
  split
  . next hle =>
    apply Logged.Meets.bind (hslope _)
    intro slope hs
    split
    . next hsteep =>
      apply (Bracket.next_continues hnote hE _).imp
      intro next hnext
      exact .raised hle hs hsteep hnext
    . next hflat =>
      apply (Bracket.next_continues hnote hE _).imp
      intro next hnext
      cases hnext with
      | inside hsteep _ => exact absurd hsteep hflat
      | lowEnd hsteep _ => exact absurd hsteep hflat
      | last _ => exact .bracketTaken hle hs hflat
  . next hgt =>
    apply (Bracket.next_continues hnote hE _).imp
    intro next hnext
    exact .lowered hgt hnext

theorem Stage.advance_advances (s : Stage α) (f : α) : (s.advance r f).Meets L E (s.Advances r f) := by
  cases s with
  | trial t => exact t.advance_advances hnote hE hslope f
  | extrapolation e => exact e.advance_advances hnote hE hslope f
  | bracket b increment => exact b.advance_advances hnote hE hslope increment f

theorem runStages_reaches
    (hvalue : ∀ s, r.Reaches s → (r.valueAt s.step).Meets L E (r.HasValue s.step)) (fuel : Nat)
    {s : Stage α} (hs : r.Reaches s) :
    (runStages r fuel s).Meets L E fun ending =>
      ∃ s f, r.Reaches s ∧ r.HasValue s.step f ∧ (s.advance r f).result = .ok (.inr ending) := by
  induction fuel generalizing s with
  | zero => exact Logged.meets_fail (hE _ rfl)
  | succ fuel ih =>
    unfold runStages
    apply Logged.Meets.bind (hvalue s hs)
    intro f hf
    apply Logged.Meets.bind ((s.advance_advances hnote hE hslope f).withValue (Logged.meets_self _))
    intro next hnext
    obtain ⟨_, hnext⟩ := hnext
    cases next with
    | inl s' => exact ih (.next hs hf hnext)
    | inr ending => exact Logged.meets_pure ⟨s, f, hs, hf, hnext⟩

end Advance

section Result

variable {r : Ray α n} {step f slope : α}

theorem Ray.HasValue.valueAt_result (hf : r.HasValue step f) : (r.valueAt step).result = .ok f :=
  Problem.eval_of_objective hf

theorem Ray.HasSlope.slopeAt_result (hslope : r.HasSlope step slope) :
    (r.slopeAt step).result = .ok slope := by
  obtain ⟨g, hg, rfl⟩ := hslope
  unfold Ray.slopeAt
  rw [Logged.result_bind_of_ok (Problem.eval_of_gradient hg)]
  rfl

theorem runStages_of_next {s s' : Stage α} (hf : r.HasValue s.step f)
    (hnext : (s.advance r f).result = .ok (.inl s')) (fuel : Nat) :
    (runStages r (fuel + 1) s).result = (runStages r fuel s').result := by
  rw [runStages, Logged.result_bind_of_ok hf.valueAt_result, Logged.result_bind_of_ok hnext]

theorem runStages_of_ending {s : Stage α} {ending : Ending α} (hf : r.HasValue s.step f)
    (hending : (s.advance r f).result = .ok (.inr ending)) (fuel : Nat) :
    (runStages r (fuel + 1) s).result = .ok ending := by
  rw [runStages, Logged.result_bind_of_ok hf.valueAt_result, Logged.result_bind_of_ok hending]
  rfl

theorem Trial.advance_taken {t : Trial α} (hfinite : Scalar.isFinite f = true)
    (hle : f ≤ r.threshold t.step) (hslope : r.HasSlope t.step slope) (hflat : slope ≥ r.curvatureSlope) :
    (t.advance r f).result = .ok (.inr (.accepted t.step f)) := by
  unfold Trial.advance
  rw [hfinite, if_neg (by decide), result_note_bind, if_pos hle,
    Logged.result_bind_of_ok hslope.slopeAt_result, if_pos hflat]
  rfl

end Result

theorem Stage.advances_of_result {r : Ray α n} {s : Stage α} {f : α} {next : Next α}
    (h : (s.advance r f).result = .ok next) : s.Advances r f next :=
  (s.advance_advances (L := fun _ => True) (E := fun _ => True) (fun _ => trivial) (fun _ _ => trivial)
    (Ray.slopeAt_hasSlope r.problem.tolerates_true) f).value next h

end LineSearch

end BoxDescent

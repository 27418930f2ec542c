import BoxDescent.Proofs.Reflection.Reach

/-!
This module contains line searches in reflected coordinates. The steps that are tried and the values at them
are the same, so the stages of the search are the same, and the result is the reflected one
(`search_reflect`).
-/

namespace BoxDescent

open Extended

variable {n : Nat} (σ τ : Fin n → Bool)

noncomputable def SearchResult.reflect (s : SearchResult Extended n) : SearchResult Extended n :=
  { s with
    x := BoxDescent.reflect σ s.x, direction := BoxDescent.reflect σ s.direction
    activeSet := s.activeSet.reflect σ }

namespace LineSearch

noncomputable def Ray.reflect (r : Ray Extended n) : Ray Extended n :=
  { r with
    problem := r.problem.reflect σ τ, origin := BoxDescent.reflect σ r.origin
    direction := BoxDescent.reflect σ r.direction, activeSet := r.activeSet.reflect σ }

theorem threshold_reflect (r : Ray Extended n) : (r.reflect σ τ).threshold = r.threshold := rfl

theorem curvatureSlope_reflect (r : Ray Extended n) :
    (r.reflect σ τ).curvatureSlope = r.curvatureSlope := rfl

theorem minStep_reflect (r : Ray Extended n) : (r.reflect σ τ).minStep = r.minStep := rfl

variable {b : Bounds Extended n} {r : Ray Extended n}

theorem point_reflect (hr : r.Keeps b) (hb : b.crossed = false) (step : Extended) :
    (r.reflect σ τ).point step = BoxDescent.reflect σ (r.point step) := by
  unfold Ray.point
  rw [← reflect_ofFn]
  congr 1
  funext i
  show (if r.fixed[i] then (BoxDescent.reflect σ r.origin)[i] else (r.activeSet.working.reflect σ).clip i
    ((BoxDescent.reflect σ r.origin)[i] + step * (BoxDescent.reflect σ r.direction)[i])) = _
  rw [getElem_reflect, getElem_reflect, mul_signed, signed_add]
  split
  . rfl
  . next hfree =>
    apply Bounds.clip_reflect
    intro l u hl hu
    have hworking := hr.holds.free i (hr.fixed ▸ Bool.eq_false_iff.mpr hfree)
    rw [hworking] at hl hu
    exact Bounds.not_lt_of_not_crossed hb hl hu

section Stages

theorem checkFeasible_reflect (r : Ray Extended n) (step f : Extended) :
    Reflected σ (fun _ _ => True) (r.checkFeasible step f) ((r.reflect σ τ).checkFeasible step f) := by
  show Reflected σ _ (r.checkFeasible step f) (r.checkFeasible step f)
  unfold Ray.checkFeasible
  split
  . exact Logged.parallel_pure trivial
  . split
    . exact Logged.parallel_fail (.same _)
    . exact Logged.parallel_pure trivial

theorem Bracket.next_reflect (r : Ray Extended n) (c : Bracket Extended) :
    Reflected σ Eq (c.next r) (c.next (r.reflect σ τ)) := by
  unfold Bracket.next
  rw [curvatureSlope_reflect, minStep_reflect]
  split
  . split
    . apply Logged.Parallel.bind (checkFeasible_reflect σ τ r _ _)
      intro _ _ _
      exact Logged.parallel_pure rfl
    . exact reflected_note_bind (Logged.parallel_pure rfl)
  . exact reflected_note_bind (Logged.parallel_pure rfl)

theorem Bracket.start_reflect (r : Ray Extended n)
    (low lowValue slope high highValue last lastValue : Extended) :
    Reflected σ Eq
      (Bracket.start r low lowValue slope high highValue last lastValue)
      (Bracket.start (r.reflect σ τ) low lowValue slope high highValue last lastValue) := by
  unfold Bracket.start
  exact reflected_note_bind (Bracket.next_reflect σ τ r _)

theorem Extrapolation.next_reflect (r : Ray Extended n) (low lowValue lowSlope : Extended) :
    Reflected σ Eq (Extrapolation.next r low lowValue lowSlope)
      (Extrapolation.next (r.reflect σ τ) low lowValue lowSlope) := by
  unfold Extrapolation.next
  rw [show (r.reflect σ τ).extrapolationLimit = r.extrapolationLimit from rfl]
  split
  . exact reflected_note_bind (Logged.parallel_pure rfl)
  . exact Bracket.start_reflect σ τ r _ _ _ _ _ _ _

theorem Trial.giveUp_reflect (r : Ray Extended n) (t : Trial Extended) :
    Reflected σ Eq (t.giveUp r) (t.giveUp (r.reflect σ τ)) := by
  show Reflected σ _ (t.giveUp r) (t.giveUp r)
  unfold Trial.giveUp
  split
  . split
    . exact reflected_note_bind (Logged.parallel_pure rfl)
    . exact reflected_note_bind (Logged.parallel_pure rfl)
  . exact reflected_note_bind (Logged.parallel_pure rfl)

variable (hr : r.Keeps b) (hb : b.crossed = false)
include hr hb

theorem slopeAt_reflect (step : Extended) :
    Reflected σ Eq (r.slopeAt step)
      ((r.reflect σ τ).slopeAt step) := by
  unfold Ray.slopeAt
  rw [point_reflect σ τ hr hb]
  apply Logged.Parallel.bind (r.problem.evalGradient_reflect σ τ _)
  rintro g _ rfl
  exact Logged.parallel_pure (dotOver_reflect σ r.free g r.direction).symm

theorem Bracket.advance_reflect (c : Bracket Extended) (increment f : Extended) :
    Reflected σ Eq (c.advance r increment f)
      (c.advance (r.reflect σ τ) increment f) := by
  unfold Bracket.advance
  dsimp only
  rw [threshold_reflect, curvatureSlope_reflect]
  split
  . apply Logged.Parallel.bind (slopeAt_reflect σ τ hr hb _)
    rintro slope _ rfl
    split
    . exact Bracket.next_reflect σ τ r _
    . exact Bracket.next_reflect σ τ r _
  . exact Bracket.next_reflect σ τ r _

theorem Extrapolation.advance_reflect (e : Extrapolation Extended) (f : Extended) :
    Reflected σ Eq (e.advance r f) (e.advance (r.reflect σ τ) f) := by
  unfold Extrapolation.advance
  rw [threshold_reflect, curvatureSlope_reflect, show e.overflows (r.reflect σ τ) = e.overflows r from rfl]
  split
  . apply Logged.Parallel.bind (slopeAt_reflect σ τ hr hb _)
    rintro slope _ rfl
    split
    . exact reflected_note_bind (Logged.parallel_pure rfl)
    . exact Extrapolation.next_reflect σ τ r _ _ _
  . split
    . exact reflected_note_bind (Logged.parallel_fail (.same _))
    . exact Bracket.start_reflect σ τ r _ _ _ _ _ _ _

theorem Trial.advance_reflect (t : Trial Extended) (f : Extended) :
    Reflected σ Eq (t.advance r f) (t.advance (r.reflect σ τ) f) := by
  unfold Trial.advance
  rw [threshold_reflect, curvatureSlope_reflect, minStep_reflect,
    show t.shorter (r.reflect σ τ) = t.shorter r from rfl]
  split
  . dsimp only
    rw [show (r.reflect σ τ).parameters = r.parameters from rfl]
    split
    . exact reflected_note_bind (Logged.parallel_pure rfl)
    . exact reflected_note_bind (Logged.parallel_pure rfl)
  . apply reflected_note_bind
    split
    . apply Logged.Parallel.bind (slopeAt_reflect σ τ hr hb _)
      rintro slope _ rfl
      split
      . exact reflected_note_bind (Logged.parallel_pure rfl)
      . split
        . exact Bracket.start_reflect σ τ r _ _ _ _ _ _ _
        . exact Extrapolation.next_reflect σ τ r _ _ _
    . split
      . exact Trial.giveUp_reflect σ τ r t
      . apply Logged.Parallel.bind (checkFeasible_reflect σ τ r _ _)
        intro _ _ _
        exact reflected_note_bind (Logged.parallel_pure rfl)

theorem runStages_reflect (fuel : Nat) (s : Stage Extended) :
    Reflected σ Eq (runStages r fuel s)
      (runStages (r.reflect σ τ) fuel s) := by
  induction fuel generalizing s with
  | zero => exact Logged.parallel_fail (.same _)
  | succ fuel ih =>
    unfold runStages
    have hvalue : Reflected σ Eq (r.valueAt s.step)
        ((r.reflect σ τ).valueAt s.step) := by
      unfold Ray.valueAt
      rw [point_reflect σ τ hr hb]
      exact r.problem.evalObjective_reflect σ τ _
    apply Logged.Parallel.bind hvalue
    rintro f _ rfl
    have hadvance : Reflected σ Eq (s.advance r f)
        (s.advance (r.reflect σ τ) f) := by
      cases s with
      | trial t => exact Trial.advance_reflect σ τ hr hb t f
      | extrapolation e => exact Extrapolation.advance_reflect σ τ hr hb e f
      | bracket c increment => exact Bracket.advance_reflect σ τ hr hb c increment f
    apply Logged.Parallel.bind hadvance
    rintro next _ rfl
    cases next with
    | inl s => exact ih s
    | inr ending => exact Logged.parallel_pure rfl

end Stages

section Ray

def Ray.IsDirected (r : Ray Extended n) : Prop :=
  ∀ i : Fin n, r.blocking = some i → r.direction[i].IsDirected

variable (hr : r.Keeps b) (hdirected : r.IsDirected) (hb : b.crossed = false)

include hdirected in
theorem fixBlocking_reflect (step : Extended) (x : Vector Extended n) :
    Reflected σ
      (fun out out' => out' = (BoxDescent.reflect σ out.1, out.2.1.reflect σ, out.2.2))
      (r.fixBlocking step x) ((r.reflect σ τ).fixBlocking step (BoxDescent.reflect σ x)) := by
  unfold Ray.fixBlocking
  rw [show (r.reflect σ τ).blocking = r.blocking from rfl,
    show (r.reflect σ τ).reach = r.reach from rfl,
    show (r.reflect σ τ).newlyFixed = r.newlyFixed from rfl]
  cases hblocking : r.blocking with
  | none => exact Logged.parallel_pure rfl
  | some i =>
    dsimp only
    split
    . exact Logged.parallel_pure rfl
    . apply reflected_note_bind
      apply Logged.parallel_pure
      have hside : (if (r.reflect σ τ).direction[i] > 0 then Side.upper else .lower) =
          (towards r.direction[i]).turned (σ i) := by
        rw [← towards_reflect (hdirected i hblocking), ← getElem_reflect]
        rfl
      have hbound : ((r.reflect σ τ).activeSet.working.bound i
          ((towards r.direction[i]).turned (σ i))).getD Scalar.undefined = signed (σ i)
            ((r.activeSet.working.bound i (towards r.direction[i])).getD Scalar.undefined) := by
        rw [show (r.reflect σ τ).activeSet.working = r.activeSet.working.reflect σ from rfl,
          Bounds.bound_reflect_turned]
        cases r.activeSet.working.bound i (towards r.direction[i]) with
        | some v => rfl
        | none =>
          show Scalar.undefined = signed (σ i) Scalar.undefined
          unfold Scalar.undefined
          rw [← signed_div, signed_zero]
      rw [hside, hbound, reflect_set, show (r.reflect σ τ).activeSet = r.activeSet.reflect σ from rfl,
        ActiveSet.fix_reflect]
      rfl

include hdirected hr hb

theorem finish_reflect (ending : Ending Extended) :
    Reflected σ (fun s s' => s' = s.reflect σ) (r.finish ending)
      ((r.reflect σ τ).finish ending) := by
  cases ending with
  | noProgress => exact Logged.parallel_pure rfl
  | accepted step value =>
    unfold Ray.finish
    dsimp only
    rw [point_reflect σ τ hr hb]
    apply Logged.Parallel.bind (fixBlocking_reflect σ τ hdirected _ _)
    rintro out _ rfl
    exact Logged.parallel_pure rfl

theorem raySearch_reflect (fuel : Nat) :
    Reflected σ (fun s s' => s' = s.reflect σ) (r.search fuel)
      ((r.reflect σ τ).search fuel) := by
  unfold Ray.search
  apply reflected_note_bind
  apply Logged.Parallel.bind (runStages_reflect σ τ hr hb fuel _)
  rintro ending _ rfl
  exact finish_reflect σ τ hr hdirected hb ending

end Ray

section Aim

noncomputable def Heading.reflect (h : Heading Extended n) : Heading Extended n :=
  { h with direction := BoxDescent.reflect σ h.direction }

variable (fixed : Vector Bool n) (direction : Vector Extended n)

theorem scale_reflect (maxNorm : Extended) :
    scale (BoxDescent.reflect σ direction) fixed maxNorm =
      { scale direction fixed maxNorm with
        direction := BoxDescent.reflect σ (scale direction fixed maxNorm).direction } := by
  unfold scale
  rw [normOver_reflect]
  dsimp only
  split
  . congr 1
    rw [← reflect_ofFn]
    congr 1
    funext i
    rw [getElem_reflect]
    split
    . rfl
    . rw [signed_mul]
  . split
    . rfl
    . rfl

theorem relativeChange_reflect (x : Vector Extended n) (free : List (Fin n)) :
    relativeChange (BoxDescent.reflect σ direction) (BoxDescent.reflect σ x) free =
      relativeChange direction x free := by
  unfold relativeChange
  simp only [getElem_reflect, abs_signed]

theorem orient_reflect (zero f : Extended) (grad : Vector Extended n) (maxNorm : Extended) :
    Reflected σ (fun out out' => out' = (out.1.reflect σ, out.2))
      (orient zero fixed f grad direction maxNorm)
      (orient zero fixed f (BoxDescent.reflect σ grad) (BoxDescent.reflect σ direction) maxNorm) := by
  unfold orient
  rw [scale_reflect]
  dsimp only
  rw [dotOver_reflect]
  apply reflected_note_bind
  split
  . exact reflected_note_bind (Logged.parallel_pure rfl)
  . split
    . exact Logged.parallel_fail (.same _)
    . exact Logged.parallel_pure rfl

theorem minStep?_reflect (h : Heading Extended n) (parameters : Parameters Extended)
    (x : Vector Extended n) :
    Reflected σ Eq (h.minStep? parameters fixed x)
      ((h.reflect σ).minStep? parameters fixed (BoxDescent.reflect σ x)) := by
  unfold Heading.minStep?
  rw [show (h.reflect σ).direction = BoxDescent.reflect σ h.direction from rfl, relativeChange_reflect]
  dsimp only
  split
  . exact reflected_note_bind (Logged.parallel_pure rfl)
  . exact Logged.parallel_pure rfl

theorem ray_reflect (h : Heading Extended n) (problem : Problem Extended n)
    (parameters : Parameters Extended) (x : Vector Extended n) (f minStep : Extended)
    {s : Reach Extended n} (hs : s.IsDirected h.direction) :
    Reflected σ (fun aimed aimed' => aimed' = aimed.map (Ray.reflect σ τ) (SearchResult.reflect σ) ∧
        ∀ r, aimed = .inl r → r.IsDirected)
      (h.ray problem parameters fixed x f minStep s)
      ((h.reflect σ).ray (problem.reflect σ τ) parameters fixed (BoxDescent.reflect σ x) f minStep
        (s.reflect σ)) := by
  unfold Heading.ray
  rw [show (s.reflect σ).step = s.step from rfl]
  apply reflected_note_bind
  split
  . apply reflected_note_bind
    exact Logged.parallel_pure ⟨rfl, fun _ h => nomatch h⟩
  . apply Logged.parallel_pure
    refine ⟨rfl, ?_⟩
    intro r hr
    cases hr
    exact hs

variable {parameters : Parameters Extended} (hp : parameters.precision.Positive)
  (problem : Problem Extended n) (a : ActiveSet Extended n) (x : Vector Extended n) (f : Extended)
  (grad : Vector Extended n) (maxNorm : Extended)
include hp

theorem aim_reflect :
    Reflected σ (fun aimed aimed' => aimed' = aimed.map (Ray.reflect σ τ) (SearchResult.reflect σ) ∧
        ∀ r, aimed = .inl r → r.IsDirected)
      (aim problem parameters a x f grad direction maxNorm)
      (aim (problem.reflect σ τ) parameters (a.reflect σ) (BoxDescent.reflect σ x) f
        (BoxDescent.reflect σ grad) (BoxDescent.reflect σ direction) maxNorm) := by
  unfold aim
  rw [show (a.reflect σ).fixed = a.fixed from rfl]
  apply Logged.Parallel.bind (orient_reflect σ a.fixed direction _ f grad maxNorm)
  rintro ⟨heading, descends⟩ _ rfl
  dsimp only
  split
  . exact Logged.parallel_pure ⟨rfl, fun _ h => nomatch h⟩
  . apply Logged.Parallel.bind (minStep?_reflect σ a.fixed heading parameters x)
    rintro minStep? _ rfl
    cases minStep? with
    | none => exact Logged.parallel_pure ⟨rfl, fun _ h => nomatch h⟩
    | some minStep =>
      apply Logged.Parallel.bind (reach_reflect σ hp heading.direction x a a.free)
      rintro s _ ⟨rfl, hs⟩
      exact ray_reflect σ τ a.fixed heading problem parameters x f minStep hs

variable (hb : b.crossed = false) (ha : a.Holds b a.indices x) (hsep : b.Separates x)
include hb ha hsep

theorem search_reflect (fuel : Nat) :
    Reflected σ (fun s s' => s' = s.reflect σ)
      (search fuel problem parameters a x f grad direction maxNorm)
      (search fuel (problem.reflect σ τ) parameters (a.reflect σ) (BoxDescent.reflect σ x) f
        (BoxDescent.reflect σ grad) (BoxDescent.reflect σ direction) maxNorm) := by
  unfold search
  apply Logged.Parallel.bind ((aim_reflect σ τ direction hp problem a x f grad maxNorm).withValue
    (aim_meets hb hp ha hsep problem f grad direction maxNorm))
  rintro aimed _ ⟨⟨rfl, hdirected⟩, haimed⟩
  cases aimed with
  | inl r => exact raySearch_reflect σ τ haimed.1 (hdirected r rfl) hb fuel
  | inr halted => exact Logged.parallel_pure rfl

end Aim

end LineSearch

end BoxDescent

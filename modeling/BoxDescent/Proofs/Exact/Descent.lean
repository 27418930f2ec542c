import BoxDescent.Proofs.Exact.Termination
import BoxDescent.Proofs.Exact.Reach
import BoxDescent.Proofs.Exact.Scale
import BoxDescent.Proofs.Triangle

/-!
This module contains a line search in exact arithmetic whose objective and gradient may answer anything:
either it stays where it is, or the step that it takes along its ray has a verdict
(`search_certified`). With enough fuel it ends, unless its ray goes down forever (`search_settles_of_stops`).
-/

namespace BoxDescent

open Extended

variable {n : Nat}

namespace LineSearch

structure Parameters.ArePositive (parameters : Parameters Extended) (c₁ c₂ zero : ℝ) : Prop where
  sufficientDecrease : parameters.sufficientDecrease = .finite c₁
  curvature : parameters.curvature = .finite c₂
  zero_eq : parameters.precision.zero = .finite zero
  displacementTolerance : ¬parameters.displacementTolerance ≤ 0
  coefficient_pos : 0 < c₁
  zero_pos : 0 < zero

variable {problem : Problem Extended n} {parameters : Parameters Extended} {a : ActiveSet Extended n}
  {x grad : Vector Extended n} {p : Fin n → ℝ} {f maxNorm : Extended} {c₁ c₂ zero : ℝ}

theorem Ray.IsFrom.exists_descends {r : Ray Extended n}
    (hr : r.IsFrom problem parameters a x f grad (ofReals p) maxNorm)
    (hp : parameters.ArePositive c₁ c₂ zero) (hm : IsLimit maxNorm) (hgrad : FiniteOn a.fixed grad)
    (hf : f = .posInf ∨ ∃ f₀, f = .finite f₀) : ∃ rate, r.Descends rate c₁ c₂ := by
  obtain ⟨q, _, _, hq, _⟩ := scale_finite a.fixed p hm
  have hdirection : r.direction = ofReals q := hr.direction_eq.trans hq
  obtain ⟨rate, hrate⟩ := hgrad.dotOver_finite q
  have hslope : r.slope = .finite rate := by
    rw [hr.slope, hdirection]
    exact hrate
  refine ⟨rate, ?_, hslope, ?_, ?_, ?_, hp.coefficient_pos, ?_, ?_, ?_⟩
  . rw [hr.value]
    exact hf
  . rw [hr.parameters_eq]
    exact hp.sufficientDecrease
  . rw [hr.parameters_eq]
    exact hp.curvature
  . have hsteep := hr.steep
    have hdescends := hr.descends
    rw [hslope, hp.zero_eq] at hsteep hdescends
    rw [abs_finite, finite_le, not_le] at hsteep
    rw [gt_iff_lt, finite_lt, not_lt] at hdescends
    -- The slope is not negligible, and it is not positive.
    apply Classical.byContradiction
    intro hnot
    rw [abs_of_nonneg (not_lt.mp hnot)] at hsteep
    linarith
  . intro v hv
    obtain ⟨m, _, hvm, hpos, _⟩ := (hr.isLongest hp.zero_eq hp.zero_pos).1.attained v hv
    exact ⟨m, hvm, hpos⟩
  . intro v hv
    rw [hr.maxStep] at hv
    exact scale_maxStep a.fixed p hm hv
  . have hmoves := hr.moves
    rw [hr.minStep]
    rw [hdirection, hp.zero_eq] at hmoves
    rw [hdirection]
    obtain hnan | ⟨c, hc⟩ := relativeChange_cases q x a.free
    . rw [hnan, div_nan]
      exact not_nan_le
    . rw [hc, finite_le, not_le] at hmoves
      rw [hc]
      exact (div_not_nonpos hp.displacementTolerance (hp.zero_pos.trans hmoves)).1

theorem Ray.IsFrom.minStep_ne_nan {r : Ray Extended n} {x : Fin n → ℝ}
    (hr : r.IsFrom problem parameters a (ofReals x) f grad (ofReals p) maxNorm)
    (hp : parameters.ArePositive c₁ c₂ zero) (hm : IsLimit maxNorm)
    (htolerance : parameters.displacementTolerance ≠ .nan) : r.minStep ≠ .nan := by
  obtain ⟨q, _, _, hq, _⟩ := scale_finite a.fixed p hm
  obtain ⟨c, hc⟩ := relativeChange_finite q x a.free
  have hmoves := hr.moves
  rw [hr.direction_eq, hq, hc, hp.zero_eq, finite_le, not_le] at hmoves
  rw [hr.minStep, hr.direction_eq, hq, hc]
  exact (div_not_nonpos hp.displacementTolerance (hp.zero_pos.trans hmoves)).2 htolerance

end LineSearch

open LineSearch

/-- The step `t` along a ray was taken. -/
structure SearchResult.Accepts (s : SearchResult Extended n) (r : Ray Extended n) (t : ℝ) : Prop where
  status : s.status = .accepted
  step : s.step = .finite t
  pos : 0 < t
  inRange : r.InRange t
  verdict : r.Verdict t s.value
  moved : (r.fixBlocking (.finite t) (r.point (.finite t))).result = .ok (s.x, s.activeSet, s.newlyFixed)

def SearchResult.IsCertified (s : SearchResult Extended n) (problem : Problem Extended n)
    (parameters : Parameters Extended) (c₁ c₂ : ℝ) (a : ActiveSet Extended n) (x : Vector Extended n)
    (f : Extended) (grad direction : Vector Extended n) (maxNorm : Extended) : Prop :=
  s.Halts a x f ∨ ∃ (r : Ray Extended n) (rate t : ℝ),
    r.IsFrom problem parameters a x f grad direction maxNorm ∧ r.Descends rate c₁ c₂ ∧ s.Accepts r t

namespace LineSearch

variable {problem : Problem Extended n} {parameters : Parameters Extended} {a : ActiveSet Extended n}
  {x grad : Vector Extended n} {p : Fin n → ℝ} {f maxNorm : Extended} {c₁ c₂ zero : ℝ}
  {E : Error Extended → Prop}

theorem Ray.IsFrom.finish_certified {r : Ray Extended n} {rate : ℝ}
    (hr : r.IsFrom problem parameters a x f grad (ofReals p) maxNorm)
    (hp : parameters.ArePositive c₁ c₂ zero) (hdescends : r.Descends rate c₁ c₂)
    {ending : Ending Extended} (h : ending.Certified r) :
    (r.finish ending).Meets (fun _ => True) E
      (·.IsCertified problem parameters c₁ c₂ a x f grad (ofReals p) maxNorm) := by
  cases ending with
  | noProgress =>
    have hactiveSet := (hr.isLongest hp.zero_eq hp.zero_pos).2.1
    apply Logged.meets_pure
    refine Or.inl ⟨hr.value, nofun, fun _ => ⟨hr.origin, hactiveSet⟩, fun i _ => ?_⟩
    dsimp only
    rw [hr.origin]
  | accepted step value =>
    obtain ⟨t, rfl, hpos, hrange, hverdict⟩ := h
    apply Logged.Meets.bind (r.fixBlocking_total (fun _ => trivial) _ _)
    intro s hs
    apply Logged.meets_pure
    exact Or.inr ⟨r, rate, t, hr, hdescends, rfl, rfl, hpos, hrange, hverdict, hs.1⟩

section Search

variable (hE : problem.Tolerates E)
  (hascent : dotOver a.free grad (scale (ofReals p) a.fixed maxNorm).direction > parameters.precision.zero →
    ∀ slope, E (.breakdown (.ascent slope)))
  (hp : parameters.ArePositive c₁ c₂ zero) (hm : IsLimit maxNorm) (hgrad : FiniteOn a.fixed grad)
  (hf : f = .posInf ∨ ∃ f₀, f = .finite f₀)
include hE hascent hp hm hgrad hf

theorem search_certified (hfuel : E .outOfFuel) (fuel : Nat) :
    (search fuel problem parameters a x f grad (ofReals p) maxNorm).Meets (fun _ => True) E
      (·.IsCertified problem parameters c₁ c₂ a x f grad (ofReals p) maxNorm) := by
  unfold search
  apply Logged.Meets.bind (aim_isFrom (fun _ => trivial) hascent _ _ _)
  intro aimed haimed
  cases aimed with
  | inr halted => exact Logged.meets_pure (Or.inl haimed.1)
  | inl r =>
    obtain ⟨rate, hdescends⟩ := haimed.exists_descends hp hm hgrad hf
    show (r.search fuel).Meets _ _ _
    unfold Ray.search
    apply meets_note_bind trivial
    apply Logged.Meets.bind (runStages_certified hdescends (haimed.problem_eq ▸ hE) hfuel fuel
      hdescends.firstTrial_certified)
    intro ending hending
    exact haimed.finish_certified hp hdescends hending

theorem search_settles_of_stops (hstops : ∀ (r : Ray Extended n) (rate : ℝ),
      r.IsFrom problem parameters a x f grad (ofReals p) maxNorm → r.Descends rate c₁ c₂ → r.Stops) :
    Logged.Settles (fun fuel => search fuel problem parameters a x f grad (ofReals p) maxNorm) E
      (·.IsCertified problem parameters c₁ c₂ a x f grad (ofReals p) maxNorm) := by
  unfold search
  apply Logged.Settles.bind (aim_isFrom (fun _ => trivial) hascent _ _ _).settles
  intro aimed haimed
  cases aimed with
  | inr halted =>
    have hpure := Logged.meets_pure (ω := Event Extended n) (L := fun _ => True) (E := E)
      (Q := (SearchResult.IsCertified · problem parameters c₁ c₂ a x f grad (ofReals p) maxNorm))
      (Or.inl haimed.1)
    exact hpure.settles
  | inl r =>
    obtain ⟨rate, hdescends⟩ := haimed.exists_descends hp hm hgrad hf
    show Logged.Settles (fun fuel => r.search fuel) E _
    unfold Ray.search
    apply Logged.Settles.bind (Logged.Meets.settles (P := fun _ => True) (meets_note trivial trivial))
    intro _ _
    apply Logged.Settles.bind (Trial.settles_of_certified hdescends (haimed.problem_eq ▸ hE)
      (hstops r rate haimed hdescends) hdescends.firstTrial_certified)
    intro ending hending
    exact (haimed.finish_certified hp hdescends hending).settles

end Search

end LineSearch

end BoxDescent

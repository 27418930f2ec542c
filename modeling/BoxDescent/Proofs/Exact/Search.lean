import BoxDescent.Proofs.Exact.Descent
import BoxDescent.Proofs.Exact.Verdict

/-!
This module contains a line search in exact arithmetic for a problem whose gradient is finite: its result is
finite, and it only fails where the problem does (`search_exact`). If the objective is bounded below, enough
fuel is all that it needs (`search_settles`).
-/

namespace BoxDescent

open Extended

variable {n : Nat}

structure Problem.IsRegular (p : Problem Extended n) (E : Error Extended → Prop) : Prop where
  objective : ∀ x v, p.objective (ofReals x) = .ok v → v = .posInf ∨ ∃ f, v = .finite f
  gradient : ∀ x g, p.gradient (ofReals x) = .ok g → ∃ w, g = ofReals w
  tolerates : p.Tolerates E

def Problem.IsBoundedBelow (p : Problem Extended n) : Prop :=
  ∃ m, ∀ x f, p.objective (ofReals x) = .ok (.finite f) → m ≤ f

/-- The result of a search from the gradient `grad` is finite, and an accepted step descends. Of the held
variables it is known already that they sit on their bounds. -/
structure SearchResult.IsExact (r : SearchResult Extended n) (fixed : Vector Bool n)
    (grad : Vector Extended n) : Prop where
  free : ∀ i : Fin n, r.activeSet.fixed[i] = false → ∃ v, r.x[i] = .finite v
  value : ∃ f, r.value = .finite f
  direction : ∃ p, r.direction = ofReals p
  slope : r.slope = dotOver (unmasked fixed) grad r.direction
  accepted : r.status = .accepted → r.slope < 0 ∧ ∃ t, r.step = .finite t ∧ 0 < t

namespace LineSearch

theorem finite_coefficients {parameters : Parameters Extended} (h₁ : 0 < parameters.sufficientDecrease)
    (h₂ : parameters.sufficientDecrease < parameters.curvature) (h₃ : parameters.curvature < 1) :
    ∃ c₁ c₂, parameters.sufficientDecrease = .finite c₁ ∧ parameters.curvature = .finite c₂ ∧
      0 < c₁ ∧ c₁ < c₂ ∧ c₂ < 1 := by
  have h₀₂ := Scalar.le_of_lt (Scalar.lt_of_lt_of_le h₁ (Scalar.le_of_lt h₂))
  have h₁₁ := Scalar.le_of_lt (Scalar.lt_of_lt_of_le h₂ (Scalar.le_of_lt h₃))
  obtain ⟨c₁, hc₁⟩ := eq_finite_of_le_of_le (Scalar.le_of_lt h₁) h₁₁
  obtain ⟨c₂, hc₂⟩ := eq_finite_of_le_of_le h₀₂ (Scalar.le_of_lt h₃)
  rw [hc₁, zero_eq, finite_lt] at h₁
  rw [hc₁, hc₂, finite_lt] at h₂
  rw [hc₂, one_eq, finite_lt] at h₃
  exact ⟨c₁, c₂, hc₁, hc₂, h₁, h₂, h₃⟩

structure Parameters.IsExact (parameters : Parameters Extended) : Prop where
  sufficientDecrease : 0 < parameters.sufficientDecrease
  order : parameters.sufficientDecrease < parameters.curvature
  curvature : parameters.curvature < 1
  displacementTolerance : ¬parameters.displacementTolerance ≤ 0
  positive : parameters.precision.Positive
  zero : ∃ zero, parameters.precision.zero = .finite zero

theorem Parameters.IsExact.arePositive {parameters : Parameters Extended} (hp : parameters.IsExact) :
    ∃ c₁ c₂ zero, parameters.ArePositive c₁ c₂ zero := by
  obtain ⟨c₁, c₂, hc₁, hc₂, hpos, _, _⟩ := finite_coefficients hp.sufficientDecrease hp.order hp.curvature
  obtain ⟨zero, hzero⟩ := hp.zero
  have hzeroPos := hp.positive.zero
  rw [hzero, zero_eq, finite_lt] at hzeroPos
  exact ⟨c₁, c₂, zero, hc₁, hc₂, hzero, hp.displacementTolerance, hpos, hzeroPos⟩

variable {problem : Problem Extended n} {parameters : Parameters Extended} {a : ActiveSet Extended n}
  {x g p : Fin n → ℝ} {f₀ c₁ c₂ zero : ℝ} {maxNorm : Extended} {E : Error Extended → Prop}

theorem scale_not_ascends (hm : IsLimit maxNorm) (hslope : ∑ i ∈ freeSet a.fixed, g i * p i ≤ 0)
    (hpos : 0 < zero) :
    ¬dotOver a.free (ofReals g) (scale (ofReals p) a.fixed maxNorm).direction > .finite zero := by
  obtain ⟨q, c, hc, hdirection, hq⟩ := scale_finite a.fixed p hm
  have hdot : dotOver a.free (ofReals g) (ofReals q) = .finite (c * ∑ i ∈ freeSet a.fixed, g i * p i) := by
    unfold ActiveSet.free
    rw [dotOver_ofReals, sum_unmasked, Finset.mul_sum]
    congr 1
    apply Finset.sum_congr rfl
    intro i hi
    rw [hq i (mem_freeSet.mp hi)]
    ring
  rw [hdirection, hdot, gt_iff_lt, finite_lt, not_lt]
  exact (mul_nonpos_of_nonneg_of_nonpos hc hslope).trans hpos.le

section Exact

variable (hproblem : problem.IsRegular E) (ha : a.working.AllFinite) (hm : IsLimit maxNorm)
include hproblem ha hm

omit hproblem in
theorem Ray.IsFrom.point_finite {r : Ray Extended n} {grad : Vector Extended n} {f : Extended}
    (hr : r.IsFrom problem parameters a (ofReals x) f grad (ofReals p) maxNorm)
    (hp : parameters.ArePositive c₁ c₂ zero) (t : ℝ) : ∃ y, r.point (.finite t) = ofReals y := by
  obtain ⟨q, _, _, hq, _⟩ := scale_finite a.fixed p hm
  apply LineSearch.point_finite hr.origin (hr.direction_eq.trans hq)
  rw [(hr.isLongest hp.zero_eq hp.zero_pos).2.1]
  exact ha

theorem Ray.IsFrom.isRegular {r : Ray Extended n} {grad : Vector Extended n} {f : Extended}
    (hr : r.IsFrom problem parameters a (ofReals x) f grad (ofReals p) maxNorm)
    (hp : parameters.ArePositive c₁ c₂ zero) : r.IsRegular := by
  obtain ⟨q, _, _, hq, _⟩ := scale_finite a.fixed p hm
  exact Ray.isRegular (hr.point_finite ha hm hp) ⟨q, hr.direction_eq.trans hq⟩
    (hr.problem_eq ▸ hproblem.objective) (hr.problem_eq ▸ hproblem.gradient)

omit hproblem in
theorem finiteOn_of_isCertified (hp : parameters.ArePositive c₁ c₂ zero) {s : SearchResult Extended n}
    {f : Extended} {grad : Vector Extended n}
    (hs : s.IsCertified problem parameters c₁ c₂ a (ofReals x) f grad (ofReals p) maxNorm) :
    FiniteOn s.activeSet.fixed s.x := by
  intro i hi
  obtain hhalts | ⟨r, _, t, hfrom, _, ht⟩ := hs
  . rw [hhalts.free i hi, getElem_ofReals]
    exact ⟨x i, rfl⟩
  . obtain ⟨y, hy⟩ := hfrom.point_finite ha hm hp t
    have hmoved := (r.fixBlocking_total (L := fun _ => True) (E := fun _ => True) (fun _ => trivial) _
      _).value _ ht.moved
    have hfree := hmoved.2 i hi
    rw [hy, getElem_ofReals] at hfree
    exact ⟨y i, hfree⟩

theorem isExact_of_isCertified (hp : parameters.ArePositive c₁ c₂ zero) {s : SearchResult Extended n}
    (hs : s.IsCertified problem parameters c₁ c₂ a (ofReals x) (.finite f₀) (ofReals g) (ofReals p) maxNorm)
    (halong : s.IsAlong a (ofReals g) (ofReals p) maxNorm) : s.IsExact a.fixed (ofReals g) := by
  obtain ⟨q, _, _, hq, _⟩ := scale_finite a.fixed p hm
  have hdirection := halong.direction.trans hq
  have hfree := finiteOn_of_isCertified ha hm hp hs
  obtain hhalts | ⟨r, rate, t, hfrom, hr, ht⟩ := hs
  . exact ⟨hfree, ⟨f₀, hhalts.value⟩, ⟨q, hdirection⟩, halong.slope, fun h => absurd h hhalts.status⟩
  . have hregular := hfrom.isRegular hproblem ha hm hp
    obtain ⟨f, hf, _⟩ | hoff := hr.value_of_verdict hfrom.value ht.pos ht.verdict
    . refine ⟨hfree, ⟨f, hf⟩, ⟨q, hdirection⟩, halong.slope, fun _ => ⟨?_, t, ht.step, ht.pos⟩⟩
      have hslope : s.slope = r.slope := by
        rw [halong.slope, halong.direction, ← hfrom.direction_eq]
        exact hfrom.slope.symm
      rw [hslope, hr.slope, zero_eq, finite_lt]
      exact hr.descends
    . exact absurd hoff hregular.not_fallsOff

variable (hp : parameters.IsExact) (hslope : ∑ i ∈ freeSet a.fixed, g i * p i ≤ 0)
include hp hslope

theorem search_exact (hfuel : E .outOfFuel) (fuel : Nat) :
    (search fuel problem parameters a (ofReals x) (.finite f₀) (ofReals g) (ofReals p) maxNorm).Meets
      (fun _ => True) E (·.IsExact a.fixed (ofReals g)) := by
  obtain ⟨c₁, c₂, zero, hpositive⟩ := hp.arePositive
  have hascent := scale_not_ascends hm hslope hpositive.zero_pos
  rw [← hpositive.zero_eq] at hascent
  apply ((search_certified hproblem.tolerates (fun h => absurd h hascent) hpositive hm
    (finiteOn_ofReals a.fixed g) (Or.inr ⟨f₀, rfl⟩) hfuel fuel).withValue (search_isAlong ..)).imp
  intro s hs
  exact isExact_of_isCertified hproblem ha hm hpositive hs.1 hs.2

omit hp hslope in
theorem Ray.IsFrom.stops_of_isBoundedBelow {r : Ray Extended n} {rate : ℝ}
    (hr : r.IsFrom problem parameters a (ofReals x) (.finite f₀) (ofReals g) (ofReals p) maxNorm)
    (hpositive : parameters.ArePositive c₁ c₂ zero) (hdescends : r.Descends rate c₁ c₂)
    (hepsilon : ∃ epsilon, parameters.precision.epsilon = .finite epsilon ∧ 0 < epsilon)
    (htolerance : parameters.displacementTolerance ≠ .nan) (hbounded : problem.IsBoundedBelow) :
    r.Stops := by
  obtain ⟨m, hm'⟩ := hbounded
  have hpoint := hr.point_finite ha hm hpositive
  have hregular := hr.isRegular hproblem ha hm hpositive
  refine ⟨?_, hr.minStep_ne_nan hpositive hm htolerance, max 0 ((f₀ - m) / (c₁ * -rate)), ?_⟩
  . rw [hr.parameters_eq]
    exact hepsilon
  . intro t v _ hv
    by_cases hpos : 0 < t
    . obtain ⟨f, rfl, hf, _⟩ := hdescends.decrease_finite hr.value (hregular.value t v hv.1) hpos hv
      obtain ⟨y, hy⟩ := hpoint t
      have hvalue := hv.1
      unfold Ray.HasValue at hvalue
      rw [hr.problem_eq, hy] at hvalue
      have hle := hm' y f hvalue
      apply le_max_of_le_right
      rw [le_div_iff₀ (mul_pos hdescends.positive (neg_pos.mpr hdescends.descends))]
      linarith
    . exact (not_lt.mp hpos).trans (le_max_left _ _)

theorem search_settles
    (hepsilon : ∃ epsilon, parameters.precision.epsilon = .finite epsilon ∧ 0 < epsilon)
    (htolerance : parameters.displacementTolerance ≠ .nan) (hbounded : problem.IsBoundedBelow) :
    Logged.Settles (fun fuel => search fuel problem parameters a (ofReals x) (.finite f₀) (ofReals g)
      (ofReals p) maxNorm) E (·.IsExact a.fixed (ofReals g)) := by
  obtain ⟨c₁, c₂, zero, hpositive⟩ := hp.arePositive
  have hascent := scale_not_ascends hm hslope hpositive.zero_pos
  rw [← hpositive.zero_eq] at hascent
  have hsettles := search_settles_of_stops (E := E) (x := ofReals x) hproblem.tolerates
    (fun h => absurd h hascent) hpositive hm (finiteOn_ofReals a.fixed g) (Or.inr ⟨f₀, rfl⟩)
    fun r rate hfrom hr => hfrom.stops_of_isBoundedBelow hproblem ha hm hpositive hr hepsilon
      htolerance hbounded
  exact (hsettles.withValue fun fuel => search_isAlong fuel problem parameters a (ofReals x)
    (.finite f₀)).imp fun s hs => isExact_of_isCertified hproblem ha hm hpositive hs.1 hs.2

end Exact

end LineSearch

end BoxDescent

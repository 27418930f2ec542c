import BoxDescent.Proofs.LineSearch.Division
import BoxDescent.Proofs.Exact.Descent
import BoxDescent.Proofs.Exact.Verdict

/-!
This module contains why a line search in exact arithmetic never divides by zero. Each divisor of the
interpolation is nonzero by what the stage knows of the steps before it (`Trial.Certified.divisors_ne_zero`,
`Bracket.Certified.divisor_ne_zero`). So a division that answers anything else for quotients by zero gives the
same search (`search_congr`).
-/

namespace BoxDescent

open Extended

structure Problem.IsRegularAt {n : Nat} (p : Problem Extended n) (y : Vector Extended n) : Prop where
  objective : ∀ v, p.objective y = .ok v → v = .posInf ∨ ∃ f, v = .finite f
  gradient : ∀ w, p.gradient y = .ok w → ∃ g, w = ofReals g

namespace LineSearch

section Divisors

variable {f₀ slope step f previous previousValue width : ℝ}

theorem quadraticDivisors_ne_zero (hstep : 0 < step) (hrise : slope * step < f - f₀) :
    ∀ d ∈ quadraticDivisors (Extended.finite f₀) (.finite slope) (.finite step) (.finite f), d ≠ 0 := by
  have hflat : slope < (f - f₀) / step := (lt_div_iff₀ hstep).mpr hrise
  unfold quadraticDivisors
  rw [finite_sub, finite_div hstep.ne', finite_sub, List.forall_mem_cons, List.forall_mem_cons]
  refine ⟨?_, ?_, nofun⟩
  . rw [zero_eq, Ne, finite_inj]
    exact hstep.ne'
  . rw [zero_eq, Ne, finite_inj]
    exact (sub_pos.mpr hflat).ne'

theorem cubicDivisors_ne_zero (hstep : 0 < step) (hprevious : step < previous)
    (hrise : slope * step < f - f₀) :
    ∀ d ∈ cubicDivisors (Extended.finite f₀) (.finite slope) (.finite step) (.finite f) (.finite previous)
      (.finite previousValue), d ≠ 0 := by
  -- If the cubic is a parabola, it opens upwards, since the objective lies above the tangent.
  have hsquare : step * step ≠ 0 := (mul_pos hstep hstep).ne'
  have hsquare' : previous * previous ≠ 0 := by
    have hpos := hstep.trans hprevious
    exact (mul_pos hpos hpos).ne'
  have hwidth : step - previous ≠ 0 := (sub_neg.mpr hprevious).ne
  have hpos : 0 < (f - f₀ - step * slope) / (step * step) := by
    apply div_pos _ (mul_pos hstep hstep)
    linarith
  unfold cubicDivisors
  simp only [square_finite, finite_sub, finite_mul, finite_add, finite_neg, finite_div hsquare,
    finite_div hsquare', finite_div hwidth, zero_eq, equal_finite, ofScientific_eq, decide_eq_true_eq,
    List.forall_mem_cons, Ne, finite_inj]
  generalize hprevRise : (previousValue - f₀ - previous * slope) = previousRise
  refine ⟨hsquare, hsquare', hwidth, ?_, nofun⟩
  split
  . next ha =>
    -- Both rises are the same multiple of the squares, and so is the coefficient that is left.
    have heq := sub_eq_zero.mp ((div_eq_zero_iff.mp ha).resolve_right hwidth)
    have hb : (-previous * (f - f₀ - step * slope) / (step * step) +
        step * previousRise / (previous * previous)) / (step - previous) =
        (f - f₀ - step * slope) / (step * step) := by
      rw [mul_div_assoc, mul_div_assoc, ← heq, ← add_mul, neg_add_eq_sub, mul_div_cancel_left₀ _ hwidth]
    rw [hb, finite_inj]
    positivity
  . next ha =>
    rw [finite_inj]
    exact mul_ne_zero (by norm_num) ha

theorem bracketDivisor_ne_zero {high : Extended}
    (hhigh : high = .posInf ∨ ∃ g, high = .finite g ∧ f + slope * width < g) :
    bracketDivisor (.finite slope) (.finite width) (.finite f) high ≠ 0 := by
  unfold bracketDivisor
  obtain rfl | ⟨g, rfl, hg⟩ := hhigh
  . nofun
  . rw [finite_sub, finite_mul, finite_sub, zero_eq, Ne, finite_inj]
    intro h
    linarith

end Divisors

variable {n : Nat} {r : Ray Extended n} {rate c₁ c₂ f₀ : ℝ} {div : Extended → Extended → Extended}

section Regular

structure Ray.IsRegularAt (r : Ray Extended n) (step : Extended) : Prop where
  value : ∀ v, r.HasValue step v → v = .posInf ∨ ∃ f, v = .finite f
  slope : ∀ s, r.HasSlope step s → ∃ m, s = .finite m

structure Bracket.IsRegular (b : Bracket Extended) : Prop where
  low : ∃ f, b.lowValue = .finite f
  slope : ∃ m, b.slope = .finite m
  high : b.highValue = .posInf ∨ ∃ g, b.highValue = .finite g

def Stage.IsRegular : Stage Extended → Prop
  | .trial _ => True
  | .extrapolation e => (∃ f, e.lowValue = .finite f) ∧ ∃ m, e.lowSlope = .finite m
  | .bracket b _ => b.IsRegular

theorem Bracket.Continues.isRegular {b : Bracket Extended} {s : Stage Extended}
    (h : b.Continues r (.inl s)) (hb : b.IsRegular) : s.IsRegular := by
  cases h with
  | inside _ _ => exact hb

theorem Extrapolation.Continues.isRegular {low lowValue lowSlope : Extended} {s : Stage Extended}
    (h : Extrapolation.Continues r low lowValue lowSlope (.inl s)) (hvalue : ∃ f, lowValue = .finite f)
    (hslope : ∃ m, lowSlope = .finite m) : s.IsRegular := by
  cases h with
  | double _ => exact ⟨hvalue, hslope⟩
  | atLimit _ hnext => exact hnext.isRegular ⟨hvalue, hslope, Or.inr hvalue⟩

end Regular

section Stages

variable (hr : r.Descends rate c₁ c₂) (hvalue : r.value = .finite f₀) (horder : c₁ < c₂)
include hr hvalue

theorem Trial.Certified.divisors_ne_zero (hc₁ : c₁ < 1) {t : Trial Extended} {step f : ℝ}
    (ht : t.Certified r step) (hf : r.Fails (.finite step) (.finite f)) :
    ∀ d ∈ t.divisors r (.finite f), d ≠ 0 := by
  have hrise : rate * step < f - f₀ := by
    have hnot := hf.2
    rw [hr.threshold_eq, hvalue, finite_add, finite_le, not_le] at hnot
    have hflat := mul_lt_mul_of_neg_right hc₁ (mul_neg_of_pos_of_neg ht.pos hr.descends)
    linarith
  unfold Trial.divisors
  rw [hvalue, hr.slope, ht.step_eq]
  split
  . exact quadraticDivisors_ne_zero ht.pos hrise
  . next hcount =>
    obtain ⟨previous, g, hprevious, hpreviousValue, hlt, _, _⟩ := ht.previous hcount
    rw [hprevious, hpreviousValue]
    exact cubicDivisors_ne_zero ht.pos hlt hrise

include horder

theorem Bracket.Certified.rises {b : Bracket Extended} {low width : ℝ} (hb : b.Certified r low width)
    (hregular : b.IsRegular) : ∃ f m, b.lowValue = .finite f ∧ b.slope = .finite m ∧
      (b.highValue = .posInf ∨ ∃ g, b.highValue = .finite g ∧ f + m * width < g) := by
  obtain ⟨⟨f, hf⟩, ⟨m, hm⟩, hhigh⟩ := hregular
  refine ⟨f, m, hf, hm, hhigh.imp_right ?_⟩
  rintro ⟨g, hg⟩
  have hrise := hr.rises_of_fails hvalue horder (hf ▸ hb.decreases) (hm ▸ hb.steep)
    (lt_add_of_pos_right low hb.wide) (hg ▸ hb.fails)
  rw [add_sub_cancel_left] at hrise
  exact ⟨g, hg, hrise⟩

theorem Bracket.Certified.divisor_ne_zero {b : Bracket Extended} {low width : ℝ}
    (hb : b.Certified r low width) (hregular : b.IsRegular) : b.divisor ≠ 0 := by
  obtain ⟨f, m, hf, hm, hhigh⟩ := hb.rises hr hvalue horder hregular
  unfold Bracket.divisor
  rw [hf, hm, hb.width_eq]
  exact bracketDivisor_ne_zero hhigh

theorem Stage.Certified.inside {b : Bracket Extended} {increment : Extended}
    (hs : (Stage.bracket b increment).Certified r) (hregular : b.IsRegular) :
    ∃ low width s, b.Certified r low width ∧ increment = .finite s ∧ width / 5 ≤ s ∧ s ≤ 4 * width / 5 := by
  obtain ⟨⟨low, width, hb⟩, hincrement⟩ := hs
  obtain ⟨f, m, hf, hm, hhigh⟩ := hb.rises hr hvalue horder hregular
  obtain ⟨s, hs, hshort, hlong⟩ := bracketIncrement_finite hb.wide hhigh
  rw [hf, hm, hb.width_eq] at hincrement
  exact ⟨low, width, s, hb, hincrement.trans hs, hshort, hlong⟩

theorem Stage.Certified.exists_step {s : Stage Extended} (hs : s.Certified r) (hregular : s.IsRegular) :
    ∃ t, s.step = .finite t ∧ 0 < t ∧ r.InRange t := by
  cases s with
  | trial t =>
    obtain ⟨step, ht⟩ := hs
    exact ⟨step, ht.step_eq, ht.pos, ht.inRange⟩
  | extrapolation e =>
    obtain ⟨low, step, he⟩ := hs
    exact ⟨step, he.step_eq, he.pos.trans he.lt, he.inRange⟩
  | bracket b increment =>
    obtain ⟨low, width, s, hb, rfl, hshort, hlong⟩ := hs.inside hr hvalue horder hregular
    have hpos := hb.pos
    have hwide := hb.wide
    refine ⟨low + s, ?_, by linarith, hb.inRange.mono (by linarith)⟩
    unfold Stage.step
    dsimp only
    rw [hb.low_eq, finite_add]

theorem Stage.Certified.isRegular {s s' : Stage Extended} (hs : s.Certified r) (hregular : s.IsRegular)
    (hstep : r.IsRegularAt s.step) {v : Extended} (hv : r.HasValue s.step v)
    (h : s.Advances r v (.inl s')) : s'.IsRegular := by
  have hfinite := hstep.value v hv
  have hlow : v ≤ r.threshold s.step → ∃ f, v = .finite f := by
    intro hle
    obtain ⟨t, ht, hpos, _⟩ := hs.exists_step hr hvalue horder hregular
    obtain ⟨f, hf, _⟩ := hr.decrease_finite hvalue hfinite hpos (ht ▸ ⟨hv, hle⟩)
    exact ⟨f, hf⟩
  cases h with
  | halved _ _ => trivial
  | shortened _ _ _ => trivial
  | trialBracketed hle hslope _ hcount hnext =>
    obtain ⟨step, ht⟩ := hs
    obtain ⟨_, g, _, hg, _⟩ := ht.previous (by omega)
    exact hnext.isRegular ⟨hlow hle, hstep.slope _ hslope, Or.inr ⟨g, hg⟩⟩
  | trialExtended hle hslope _ _ hnext => exact hnext.isRegular (hlow hle) (hstep.slope _ hslope)
  | extended hle hslope _ hnext => exact hnext.isRegular (hlow hle) (hstep.slope _ hslope)
  | extrapolationBracketed _ hnext => exact hnext.isRegular ⟨hregular.1, hregular.2, hfinite⟩
  | raised hle hslope _ hnext => exact hnext.isRegular ⟨hlow hle, hstep.slope _ hslope, hregular.high⟩
  | lowered _ hnext => exact hnext.isRegular ⟨hregular.low, hregular.slope, hfinite⟩

omit hvalue horder in
theorem Ray.Descends.extrapolation_congr (low : ℝ) (lowValue lowSlope : Extended) :
    @Extrapolation.next Extended (Scalar.withDivision inferInstance div) n r (.finite low) lowValue lowSlope =
      Extrapolation.next r (.finite low) lowValue lowSlope := by
  apply Extrapolation.next_congr
  intro _ hwide
  rw [finite_sub, sub_self] at hwide
  exact absurd hwide hr.minStep

variable (hdiv : ∀ d, d ≠ 0 → Divides div d)
include hdiv

theorem Trial.Certified.advance_congr (hc₁ : c₁ < 1) {t : Trial Extended} {step : ℝ}
    (ht : t.Certified r step) (hregular : r.IsRegularAt t.step) {v : Extended} (hv : r.HasValue t.step v) :
    @Trial.advance Extended (Scalar.withDivision inferInstance div) n r t v = t.advance r v := by
  rw [ht.step_eq] at hv hregular
  unfold Trial.advance
  apply if_ctx_congr Iff.rfl
  . exact fun _ => rfl
  . intro hfinite
    rw [Bool.not_eq_true', Bool.not_eq_false] at hfinite
    obtain ⟨f, rfl⟩ := isFinite_iff.mp hfinite
    apply bind_congr
    intro _
    apply if_ctx_congr Iff.rfl
    . intro hle
      rw [ht.step_eq] at hle ⊢
      apply Logged.bind_congr_of_ok
      intro slope hslope
      have hs := (Ray.slopeAt_hasSlope r.problem.tolerates_true (.finite step)).value slope hslope
      apply if_ctx_congr Iff.rfl
      . exact fun _ => rfl
      . intro _
        apply if_ctx_congr Iff.rfl
        . intro hcount
          obtain ⟨previous, g, hprevious, hpreviousValue, hlt, hrange, hfails⟩ := ht.previous (by omega)
          rw [hprevious, hpreviousValue]
          apply Bracket.start_congr
          intro hsteep _
          exact hdiv _ ((Bracket.between_certified ht.pos hlt hrange ⟨hv, hle⟩ hs hsteep hfails).divisor_ne_zero
            hr hvalue horder ⟨⟨f, rfl⟩, hregular.slope slope hs, Or.inr ⟨g, rfl⟩⟩)
        . exact fun _ => hr.extrapolation_congr step _ _
    . intro hgt
      rw [ht.step_eq] at hgt
      apply if_ctx_congr Iff.rfl
      . exact fun _ => rfl
      . intro _
        rw [Trial.shorter_congr fun d hd => hdiv d (ht.divisors_ne_zero hr hvalue hc₁ ⟨hv, hgt⟩ d hd)]
        rfl

theorem Extrapolation.Certified.advance_congr {e : Extrapolation Extended} {low step : ℝ}
    (he : e.Certified r low step) (hlow : (Stage.extrapolation e).IsRegular)
    (hregular : r.IsRegularAt e.step) {v : Extended} (hv : r.HasValue e.step v) :
    @Extrapolation.advance Extended (Scalar.withDivision inferInstance div) n r e v = e.advance r v := by
  have hfinite := hregular.value v hv
  rw [he.step_eq] at hv
  unfold Extrapolation.advance
  apply if_ctx_congr Iff.rfl
  . intro _
    apply bind_congr
    intro slope
    apply if_ctx_congr Iff.rfl
    . exact fun _ => rfl
    . intro _
      rw [he.step_eq]
      exact hr.extrapolation_congr step _ _
  . intro hgt
    apply if_ctx_congr Iff.rfl
    . exact fun _ => rfl
    . intro _
      rw [he.step_eq] at hgt ⊢
      rw [he.low_eq]
      apply Bracket.start_congr
      intro hsteep _
      exact hdiv _ ((Bracket.between_certified he.pos he.lt he.inRange he.decreases he.slope hsteep
        ⟨hv, hgt⟩).divisor_ne_zero hr hvalue horder ⟨hlow.1, hlow.2, hfinite⟩)

theorem Bracket.Certified.advance_congr {b : Bracket Extended} {low width s : ℝ}
    (hb : b.Certified r low width) (hends : b.IsRegular) (hshort : 0 < s) (hlong : s < width)
    (hregular : r.IsRegularAt (b.low + .finite s)) {v : Extended} (hv : r.HasValue (b.low + .finite s) v) :
    @Bracket.advance Extended (Scalar.withDivision inferInstance div) n r b (.finite s) v =
      b.advance r (.finite s) v := by
  have hpos := hb.pos
  have hfinite := hregular.value v hv
  rw [hb.low_eq, finite_add] at hv hregular
  unfold Bracket.advance
  dsimp only
  rw [hb.low_eq, finite_add]
  apply if_ctx_congr Iff.rfl
  . intro hle
    obtain ⟨f, rfl, _⟩ := hr.decrease_finite hvalue hfinite (by linarith) ⟨hv, hle⟩
    apply Logged.bind_congr_of_ok
    intro slope hslope
    have hs := (Ray.slopeAt_hasSlope r.problem.tolerates_true (.finite (low + s))).value slope hslope
    apply if_ctx_congr Iff.rfl
    . intro _
      apply Bracket.next_congr
      intro hsteep _
      exact hdiv _ ((hb.raise hshort hlong ⟨hv, hle⟩ hs hsteep).divisor_ne_zero hr hvalue horder
        ⟨⟨f, rfl⟩, hregular.slope slope hs, hends.high⟩)
    . intro hflat
      apply Bracket.next_congr
      exact fun hsteep => absurd hsteep hflat
  . intro hgt
    apply Bracket.next_congr
    intro _ _
    have hlower : Bracket.Certified r { b with low := .finite low, width := .finite s, highValue := v
                                               last := .finite (low + s), lastValue := v } low s :=
      hb.low_eq ▸ hb.lower hshort hlong ⟨hv, hgt⟩
    exact hdiv _ (hlower.divisor_ne_zero hr hvalue horder ⟨hends.low, hends.slope, hfinite⟩)

theorem Stage.Certified.advance_congr (hc₁ : c₁ < 1) {s : Stage Extended} (hs : s.Certified r)
    (hregular : s.IsRegular) (hstep : r.IsRegularAt s.step) {v : Extended} (hv : r.HasValue s.step v) :
    @Stage.advance Extended (Scalar.withDivision inferInstance div) n r s v = s.advance r v := by
  cases s with
  | trial t =>
    obtain ⟨step, ht⟩ := hs
    exact ht.advance_congr hr hvalue horder hdiv hc₁ hstep hv
  | extrapolation e =>
    obtain ⟨low, step, he⟩ := hs
    exact he.advance_congr hr hvalue horder hdiv hregular hstep hv
  | bracket b increment =>
    obtain ⟨low, width, s, hb, rfl, hshort, hlong⟩ := hs.inside hr hvalue horder hregular
    have hwide := hb.wide
    exact hb.advance_congr hr hvalue horder hdiv hregular (by linarith) (by linarith) hstep hv

end Stages

section Reached

theorem Ray.Reaches.certified (hr : r.Descends rate c₁ c₂) {s : Stage Extended} (hs : r.Reaches s) :
    s.Certified r := by
  induction hs with
  | first => exact hr.firstTrial_certified
  | next _ hv hnext ih => exact ((Stage.advance_certified hr r.problem.tolerates_true ih hv).value _ hnext).1

variable (hr : r.Descends rate c₁ c₂) (hvalue : r.value = .finite f₀) (horder : c₁ < c₂)
include hr hvalue horder

theorem Ray.IsRegular.exists_step (hregular : r.IsRegular) {s : Stage Extended} (hs : r.Reaches s) :
    ∃ t, s.step = .finite t := by
  have hstage : s.IsRegular := by
    induction hs with
    | first => trivial
    | @next s _ _ hs hv hnext ih =>
      obtain ⟨t, ht, _⟩ := (hs.certified hr).exists_step hr hvalue horder ih
      have hstep : r.IsRegularAt s.step := by
        rw [ht]
        exact ⟨hregular.value t, hregular.slope t⟩
      exact (hs.certified hr).isRegular hr hvalue horder ih hstep hv (Stage.advances_of_result hnext)
  obtain ⟨t, ht, _⟩ := (hs.certified hr).exists_step hr hvalue horder hstage
  exact ⟨t, ht⟩

variable (hregular : ∀ s, r.Reaches s → r.IsRegularAt s.step)
include hregular

theorem Ray.Reaches.isRegular {s : Stage Extended} (hs : r.Reaches s) : s.IsRegular := by
  induction hs with
  | first => trivial
  | next hs hv hnext ih =>
    exact (hs.certified hr).isRegular hr hvalue horder ih (hregular _ hs) hv (Stage.advances_of_result hnext)

theorem runStages_congr (hc₁ : c₁ < 1) (hdiv : ∀ d, d ≠ 0 → Divides div d) (fuel : Nat)
    {s : Stage Extended} (hs : r.Reaches s) :
    @runStages Extended (Scalar.withDivision inferInstance div) n r fuel s = runStages r fuel s := by
  induction fuel generalizing s with
  | zero => rfl
  | succ fuel ih =>
    unfold runStages
    apply Logged.bind_congr_of_ok
    intro v hvalueAt
    have hv := (Ray.valueAt_hasValue r.problem.tolerates_true s.step).value v hvalueAt
    rw [(hs.certified hr).advance_congr hr hvalue horder hdiv hc₁ (hs.isRegular hr hvalue horder hregular)
      (hregular s hs) hv]
    apply Logged.bind_congr_of_ok
    intro next hnext
    cases next with
    | inl s' => exact ih (.next hs hv hnext)
    | inr ending => rfl

end Reached

section Search

variable {problem : Problem Extended n} {parameters : Parameters Extended} {a : ActiveSet Extended n}
  {x g p : Fin n → ℝ} {zero : ℝ} {maxNorm : Extended}
  (hdiv : ∀ d, d ≠ 0 → Divides div d)
include hdiv

theorem scaleDivides (hm : IsLimit maxNorm) (fixed : Vector Bool n) :
    ScaleDivides div (ofReals p) fixed maxNorm := by
  intro h
  apply hdiv
  rw [normOver_ofReals] at h ⊢
  generalize Real.sqrt _ = norm at h ⊢
  rw [zero_eq, Ne, finite_inj]
  rintro rfl
  cases h with
  | inl hlong =>
    cases maxNorm with
    | finite m => exact absurd (finite_lt.mp hlong) (not_lt.mpr (hm.2 m rfl))
    | posInf => exact absurd trivial hlong.2
    | negInf => exact hm.1 rfl
    | nan => exact hlong.1
  | inr hpos => exact absurd (finite_lt.mp hpos) (lt_irrefl 0)

theorem maximumDivides (i : Fin n) :
    Divides div (Scalar.maximum (Scalar.abs (ofReals x)[i]) 1) := by
  apply hdiv
  rw [getElem_ofReals, abs_finite, one_eq, maximum_finite, zero_eq, Ne, finite_inj]
  exact (lt_of_lt_of_le one_pos (le_max_right _ _)).ne'

theorem directionDivides {epsilon : Extended} (hepsilon : 0 < epsilon) (d : Extended)
    (h : d < -epsilon ∨ d > epsilon) : Divides div d := by
  apply hdiv
  rintro rfl
  cases h with
  | inl hneg =>
    have hle := Scalar.Lawful.neg_nonpos (Scalar.le_of_lt hepsilon)
    exact Scalar.lt_irrefl (Scalar.lt_of_lt_of_le hneg hle)
  | inr hpos => exact Scalar.lt_irrefl (Scalar.lt_of_lt_of_le hepsilon (Scalar.le_of_lt hpos))

omit hdiv in
theorem Ray.IsFrom.isRegularAt {r : Ray Extended n} {x grad : Vector Extended n} {f step : Extended}
    (hr : r.IsFrom problem parameters a x f grad (ofReals p) maxNorm) (hm : IsLimit maxNorm)
    (h : problem.IsRegularAt (r.point step)) : r.IsRegularAt step where
  value := by
    intro v hv
    exact h.objective v (hr.problem_eq ▸ hv)
  slope := by
    rintro s ⟨w, hw, hs⟩
    obtain ⟨q, _, _, hq, _⟩ := scale_finite a.fixed p hm
    obtain ⟨g, rfl⟩ := h.gradient w (hr.problem_eq ▸ hw)
    rw [hr.direction_eq, hq, dotOver_ofReals] at hs
    exact ⟨_, hs.symm⟩

/-- A search in exact arithmetic does not depend on what quotients by zero are. -/
theorem search_congr (hp : parameters.ArePositive c₁ c₂ zero)
    (hepsilon : 0 < parameters.precision.epsilon) (horder : c₁ < c₂) (hc₂ : c₂ < 1) (hm : IsLimit maxNorm)
    (hregular : ∀ r s, (aim problem parameters a (ofReals x) (.finite f₀) (ofReals g) (ofReals p)
      maxNorm).result = .ok (.inl r) → r.Reaches s → problem.IsRegularAt (r.point s.step)) (fuel : Nat) :
    @search Extended (Scalar.withDivision inferInstance div) n fuel problem parameters a (ofReals x)
      (.finite f₀) (ofReals g) (ofReals p) maxNorm =
    search fuel problem parameters a (ofReals x) (.finite f₀) (ofReals g) (ofReals p) maxNorm := by
  have hchange : ∀ change, ¬change ≤ parameters.precision.zero → Divides div change := by
    intro change hchange
    apply hdiv
    rintro rfl
    rw [hp.zero_eq, zero_eq, finite_le, not_le] at hchange
    exact absurd hchange hp.zero_pos.not_gt
  unfold search
  rw [aim_congr (scaleDivides hdiv hm a.fixed) (maximumDivides hdiv) hchange (directionDivides hdiv hepsilon)]
  apply Logged.bind_congr_of_ok
  intro aimed haimed
  cases aimed with
  | inr halted => rfl
  | inl r =>
    have hfrom := isFrom_of_aim haimed
    obtain ⟨rate, hr⟩ := hfrom.exists_descends hp hm (finiteOn_ofReals a.fixed g) (Or.inr ⟨f₀, rfl⟩)
    have hstages := runStages_congr hr hfrom.value horder
      (fun s hs => hfrom.isRegularAt hm (hregular r s haimed hs)) (horder.trans hc₂) hdiv fuel .first
    have hblocking : ∀ i, r.blocking = some i →
        ∃ w, r.activeSet.working.bound i (towards r.direction[i]) = some w := by
      obtain ⟨hlongest, hactiveSet, _⟩ := hfrom.isLongest hp.zero_eq hp.zero_pos
      intro i hi
      rw [hactiveSet]
      exact hlongest.exists_bound hepsilon hi
    show @Ray.search Extended (Scalar.withDivision inferInstance div) n r fuel = r.search fuel
    unfold Ray.search
    apply bind_congr
    intro _
    show (@runStages Extended (Scalar.withDivision inferInstance div) n r fuel (.trial (firstTrial r)) >>=
      fun ending => @Ray.finish Extended (Scalar.withDivision inferInstance div) n r ending) = _
    rw [hstages]
    exact bind_congr fun ending => Ray.finish_congr hblocking ending

end Search

end LineSearch

end BoxDescent

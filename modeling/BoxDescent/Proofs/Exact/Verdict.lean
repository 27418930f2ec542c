import BoxDescent.Proofs.Exact.Certificate
import BoxDescent.Proofs.Exact.Vector

/-!
This module contains what the verdict on a step says of the objective there. From a finite value it is finite
and lower, unless the search has fallen off (`Ray.Descends.value_of_verdict`). Where the objective and its
gradient are regular, it never falls off, and the verdict is a certificate
(`Ray.Descends.certificate_of_verdict`).
-/

namespace BoxDescent.LineSearch

open Extended

variable {n : Nat}

def Ray.FallsOff (r : Ray Extended n) (t : ℝ) (v : Extended) : Prop :=
  v = .negInf ∧ r.HasValue (.finite t) .negInf ∨
    -- Past an undefined slope the next step is taken even if it fails.
    ∃ low f, low < t ∧ r.Decreases (.finite low) f ∧ r.HasSlope (.finite low) .nan ∧
      r.Fails (.finite t) v

theorem Ray.Descends.value_of_verdict {r : Ray Extended n} {rate c₁ c₂ f₀ t : ℝ} {v : Extended}
    (hr : r.Descends rate c₁ c₂) (hvalue : r.value = .finite f₀) (hpos : 0 < t) (h : r.Verdict t v) :
    (∃ f, v = .finite f ∧ f < f₀) ∨ r.FallsOff t v := by
  have hlt : f₀ + c₁ * t * rate < f₀ := by
    have := mul_neg_of_pos_of_neg (mul_pos hr.positive hpos) hr.descends
    linarith
  have hdecreases : r.Decreases (.finite t) v → (∃ f, v = .finite f ∧ f < f₀) ∨ r.FallsOff t v := by
    intro hv
    have hle := hv.2
    rw [hr.threshold_eq, hvalue, finite_add] at hle
    cases v with
    | finite f => exact Or.inl ⟨f, rfl, lt_of_le_of_lt (finite_le.mp hle) hlt⟩
    | posInf => exact hle.elim
    | negInf => exact Or.inr (Or.inl ⟨rfl, hv.1⟩)
    | nan => exact hle.elim
  cases h with
  | conditions s hv _ _ => exact hdecreases hv
  | confined s hv _ _ _ => exact hdecreases hv
  | undefinedSlope hv _ => exact hdecreases hv
  | fullStep t' v' _ hfails hless _ _ _ =>
    have hnot := hfails.2
    rw [hr.threshold_eq, hvalue, finite_add] at hnot
    rw [hvalue] at hless
    cases v with
    | finite f => exact Or.inl ⟨f, rfl, finite_lt.mp hless⟩
    | posInf => exact (Scalar.le_of_lt hless).elim
    | negInf => exact absurd trivial hnot
    | nan => exact (Scalar.le_of_lt hless).elim
  | unseen low f hlow hf hslope hfails => exact Or.inr (Or.inr ⟨low, f, hlow, hf, hslope, hfails⟩)

structure Ray.IsRegular (r : Ray Extended n) : Prop where
  value : ∀ t v, r.HasValue (.finite t) v → v = .posInf ∨ ∃ f, v = .finite f
  slope : ∀ t s, r.HasSlope (.finite t) s → ∃ m, s = .finite m

theorem Ray.isRegular {r : Ray Extended n} (hpoint : ∀ t, ∃ y, r.point (.finite t) = ofReals y)
    (hdirection : ∃ d, r.direction = ofReals d)
    (hobjective : ∀ y v, r.problem.objective (ofReals y) = .ok v → v = .posInf ∨ ∃ f, v = .finite f)
    (hgradient : ∀ y w, r.problem.gradient (ofReals y) = .ok w → ∃ g, w = ofReals g) :
    r.IsRegular where
  value := by
    intro t v hv
    obtain ⟨y, hy⟩ := hpoint t
    unfold Ray.HasValue at hv
    rw [hy] at hv
    exact hobjective y v hv
  slope := by
    intro t s hs
    obtain ⟨y, hy⟩ := hpoint t
    obtain ⟨d, hd⟩ := hdirection
    obtain ⟨w, hw, hdot⟩ := hs
    rw [hy] at hw
    obtain ⟨g, rfl⟩ := hgradient y w hw
    rw [← hdot, hd, dotOver_ofReals]
    exact ⟨_, rfl⟩

theorem Ray.IsRegular.not_fallsOff {r : Ray Extended n} (hr : r.IsRegular) {t : ℝ} {v : Extended} :
    ¬r.FallsOff t v := by
  intro h
  obtain ⟨_, hv⟩ | ⟨low, f, _, _, hs, _⟩ := h
  . obtain hposInf | ⟨f, hf⟩ := hr.value t _ hv
    . cases hposInf
    . cases hf
  . obtain ⟨m, hm⟩ := hr.slope low _ hs
    cases hm

/-- Why an accepted step is good: both conditions hold; or the objective decreases sufficiently, and no
step is longer by more than a negligible one and does not fail; or the trials became negligible, but the
full step decreased the objective at least. -/
inductive Ray.Certificate (r : Ray Extended n) (t : ℝ) (v : Extended) : Prop where
  | conditions (s : Extended) : r.Decreases (.finite t) v → r.HasSlope (.finite t) s →
      r.curvatureSlope ≤ s → Certificate r t v
  | longest (s : Extended) : r.Decreases (.finite t) v → r.HasSlope (.finite t) s →
      s < r.curvatureSlope → r.extrapolationLimit = some (.finite t) → Certificate r t v
  | narrow (s : Extended) (t' : ℝ) (v' : Extended) : r.Decreases (.finite t) v →
      r.HasSlope (.finite t) s → s < r.curvatureSlope → t < t' → r.InRange t' →
      r.Fails (.finite t') v' → Extended.finite (t' - t) < r.minStep → Certificate r t v
  | fullStep (t' : ℝ) (v' : Extended) : (firstTrial r).step = .finite t → r.Fails (.finite t) v →
      v < r.value → 0 < t' → Extended.finite t' < r.minStep → r.Fails (.finite t') v' →
      Certificate r t v

namespace Ray.Descends

variable {r : Ray Extended n} {rate c₁ c₂ f₀ t : ℝ} {v : Extended} (hr : r.Descends rate c₁ c₂)
  (hvalue : r.value = .finite f₀)
include hr hvalue

theorem decrease_finite (hfinite : v = .posInf ∨ ∃ f, v = .finite f) (hpos : 0 < t)
    (hv : r.Decreases (.finite t) v) : ∃ f, v = .finite f ∧ f ≤ f₀ + c₁ * t * rate ∧ f < f₀ := by
  obtain ⟨_, hle⟩ := hv
  rw [hr.threshold_eq, hvalue, finite_add] at hle
  obtain rfl | ⟨f, rfl⟩ := hfinite
  . exact hle.elim
  . have := mul_neg_of_pos_of_neg (mul_pos hr.positive hpos) hr.descends
    rw [finite_le] at hle
    exact ⟨f, rfl, hle, by linarith⟩

theorem rises_of_fails (horder : c₁ < c₂) {t' f m g : ℝ} (hv : r.Decreases (.finite t) (.finite f))
    (hsteep : Extended.finite m < r.curvatureSlope) (hlt : t < t')
    (hv' : r.Fails (.finite t') (.finite g)) : f + m * (t' - t) < g := by
  have hle := hv.2
  have hnot := hv'.2
  rw [hr.threshold_eq, hvalue, finite_add, finite_le] at hle
  rw [hr.threshold_eq, hvalue, finite_add, finite_le, not_le] at hnot
  rw [hr.curvatureSlope_eq, finite_lt] at hsteep
  have hwidth : 0 < t' - t := by linarith
  have hsteep' := mul_lt_mul_of_pos_right hsteep hwidth
  have hflat := mul_lt_mul_of_pos_right (mul_lt_mul_of_neg_right horder hr.descends) hwidth
  linarith

theorem bracketIncrement_defined (hregular : r.IsRegular) (horder : c₁ < c₂) (hpos : 0 < t)
    (hv : r.Decreases (.finite t) v) {s : Extended} (hs : r.HasSlope (.finite t) s)
    (hsteep : s < r.curvatureSlope) {t' : ℝ} (hlt : t < t') {v' : Extended}
    (hv' : r.Fails (.finite t') v') : bracketIncrement s (.finite (t' - t)) v v' ≠ .nan := by
  obtain ⟨f, rfl, _⟩ := hr.decrease_finite hvalue (hregular.value t v hv.1) hpos hv
  obtain ⟨m, rfl⟩ := hregular.slope t s hs
  have hhigh : v' = .posInf ∨ ∃ g, v' = .finite g ∧ f + m * (t' - t) < g := by
    apply (hregular.value t' v' hv'.1).imp_right
    rintro ⟨g, rfl⟩
    exact ⟨g, rfl, hr.rises_of_fails hvalue horder hv hsteep hlt hv'⟩
  obtain ⟨increment, hincrement, _⟩ := bracketIncrement_finite (sub_pos.mpr hlt) hhigh
  rw [hincrement]
  nofun

theorem certificate_of_verdict (hregular : r.IsRegular) (horder : c₁ < c₂) (hnan : r.minStep ≠ .nan)
    (hpos : 0 < t) (hrange : r.InRange t) (h : r.Verdict t v) :
    ∃ f, v = .finite f ∧ r.HasValue (.finite t) v ∧ f < f₀ ∧ r.Certificate t v := by
  have hdecrease : r.Decreases (.finite t) v → r.Certificate t v →
      ∃ f, v = .finite f ∧ r.HasValue (.finite t) v ∧ f < f₀ ∧ r.Certificate t v := by
    intro hv hcertificate
    obtain ⟨f, hf, _, hlt⟩ := hr.decrease_finite hvalue (hregular.value t v hv.1) hpos hv
    exact ⟨f, hf, hv.1, hlt, hcertificate⟩
  have hundefined : ∀ low, ¬r.HasSlope (.finite low) .nan := by
    intro low hs
    obtain ⟨m, hm⟩ := hregular.slope low _ hs
    cases hm
  cases h with
  | conditions s hv hs hflat => exact hdecrease hv (.conditions s hv hs hflat)
  | confined s hv hs hsteep hconfined =>
    apply hdecrease hv
    cases hconfined with
    | limit hlimit =>
      apply Ray.Certificate.longest s hv hs hsteep
      obtain ⟨_, hall⟩ | ⟨m, hm, hiff⟩ := hr.limit_cases
      . have := hlimit (t + 1) (hall _)
        linarith
      . rw [hm, le_antisymm (hlimit m ((hiff m).mpr le_rfl)) ((hiff t).mp hrange)]
    | narrow t' v' hlt hrange' hv' hnarrow =>
      exact .narrow s t' v' hv hs hsteep hlt hrange' hv'
        (Scalar.lt_of_not_le (le_self_iff.mpr hnan) (finite_le.mpr le_rfl) hnarrow)
    | undefined t' v' hlt _ hv' hincrement =>
      exact absurd hincrement
        (hr.bracketIncrement_defined hvalue hregular horder hpos hv hs hsteep hlt hv')
  | fullStep t' v' hstep hv hlt hpos' hmin hv' =>
    have hlt' := hlt
    rw [hvalue] at hlt'
    obtain rfl | ⟨f, rfl⟩ := hregular.value t v hv.1
    . exact (Scalar.le_of_lt hlt').elim
    . exact ⟨f, rfl, hv.1, finite_lt.mp hlt', .fullStep t' v' hstep hv hlt hpos' hmin hv'⟩
  | undefinedSlope _ hs => exact absurd hs (hundefined t)
  | unseen low _ _ _ hs _ => exact absurd hs (hundefined low)

end Ray.Descends

end BoxDescent.LineSearch

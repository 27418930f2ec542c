import Mathlib.Tactic.Linarith
import Mathlib.Tactic.NormNum
import BoxDescent.LineSearch.Interpolation
import BoxDescent.Proofs.Scalar.Extended

/-!
This module contains the trial steps in exact arithmetic: whatever a polynomial suggests, the step that is
taken is finite and lies in the part of the interval that it has to lie in.
-/

namespace BoxDescent.LineSearch

open Extended

variable {f₀ slope step f previous previousValue : ℝ}

theorem finite_div_ne_nan {a b : ℝ} (ha : a ≠ 0) : Extended.finite a / .finite b ≠ .nan := by
  by_cases hb : b = 0
  . rw [hb, finite_div_zero]
    unfold infinity
    split
    . nofun
    . next hpos =>
      rw [if_pos (lt_of_le_of_ne (not_lt.mp hpos) ha)]
      nofun
  . rw [finite_div hb]
    nofun

theorem shorten_finite (hstep : 0 < step) {suggestion : Extended} (h : suggestion ≠ .nan) :
    ∃ s, shorten (.finite step) suggestion = .finite s ∧ step / 10 ≤ s ∧ s ≤ step / 2 := by
  have hhalf : (0.5 : Extended) * .finite step = .finite (step / 2) := ofScientific_mul (by ring)
  have htenth : (0.1 : Extended) * .finite step = .finite (step / 10) := ofScientific_mul (by ring)
  have hle : step / 10 ≤ step / 2 := by linarith
  unfold shorten
  rw [hhalf, htenth]
  cases suggestion with
  | finite x =>
    rw [pickMin_finite, pickMax_finite]
    exact ⟨_, rfl, le_max_right _ _, max_le (min_le_right _ _) hle⟩
  | posInf =>
    -- An infinite suggestion is cut off by the ends of the interval.
    have hmin : Scalar.pickMin .posInf (Extended.finite (step / 2)) = .finite (step / 2) := by
      unfold Scalar.pickMin
      exact if_pos ⟨trivial, id⟩
    rw [hmin, pickMax_finite]
    exact ⟨_, rfl, le_max_right _ _, max_le (le_refl _) hle⟩
  | negInf =>
    have hmin : Scalar.pickMin .negInf (Extended.finite (step / 2)) = .negInf := by
      unfold Scalar.pickMin
      exact if_neg fun h => h.1
    have hmax : Scalar.pickMax .negInf (Extended.finite (step / 10)) = .finite (step / 10) := by
      unfold Scalar.pickMax
      exact if_pos ⟨trivial, id⟩
    rw [hmin, hmax]
    exact ⟨_, rfl, le_refl _, hle⟩
  | nan => exact absurd rfl h

theorem quadraticMinimiser_ne_nan (hstep : 0 < step) (hslope : slope < 0) :
    quadraticMinimiser (Extended.finite f₀) (.finite slope) (.finite step) (.finite f) ≠ .nan := by
  have hne : -0.5 * step * slope ≠ 0 :=
    mul_ne_zero (mul_ne_zero (by norm_num) hstep.ne') hslope.ne
  unfold quadraticMinimiser
  simp only [ofScientific_eq, finite_neg, finite_mul, finite_sub, finite_div hstep.ne']
  exact finite_div_ne_nan hne

theorem cubicMinimiser_ne_nan (hstep : 0 < step) (hprevious : step < previous) (hslope : slope < 0) :
    cubicMinimiser (Extended.finite f₀) (.finite slope) (.finite step) (.finite f)
      (.finite previous) (.finite previousValue) ≠ .nan := by
  have hsquare : step * step ≠ 0 := (mul_pos hstep hstep).ne'
  have hsquare' : previous * previous ≠ 0 := by
    have hpos := hstep.trans hprevious
    exact (mul_pos hpos hpos).ne'
  have hwidth : step - previous ≠ 0 := (sub_neg.mpr hprevious).ne
  unfold cubicMinimiser
  simp only [square_finite, finite_sub, finite_mul, finite_add, finite_neg, finite_div hsquare,
    finite_div hsquare', finite_div hwidth, zero_eq, equal_finite, ofScientific_eq, pickMax_finite,
    decide_eq_true_eq]
  split
  . exact finite_div_ne_nan (neg_pos.mpr hslope).ne'
  . next ha =>
    rw [sqrt_finite (le_max_right _ _), finite_add, finite_div (mul_ne_zero (by norm_num) ha)]
    nofun

theorem bracketIncrement_cases {width : ℝ} (hwidth : 0 < width) (slope f high : Extended) :
    bracketIncrement slope (.finite width) f high = .nan ∨
      ∃ s, bracketIncrement slope (.finite width) f high = .finite s ∧ width / 5 ≤ s ∧
        s ≤ 4 * width / 5 := by
  have hlow : (0.2 : Extended) * .finite width = .finite (width / 5) := ofScientific_mul (by ring)
  have hup : (0.8 : Extended) * .finite width = .finite (4 * width / 5) := ofScientific_mul (by ring)
  have hle : width / 5 ≤ 4 * width / 5 := by linarith
  unfold bracketIncrement
  rw [hlow, hup]
  dsimp only
  generalize -0.5 * slope * Scalar.square (.finite width) / _ = suggestion
  cases suggestion with
  | finite x =>
    rw [pickMax_finite, pickMin_finite]
    exact Or.inr ⟨_, rfl, le_min (le_max_right _ _) hle, min_le_right _ _⟩
  | posInf =>
    have hmax : Scalar.pickMax .posInf (Extended.finite (width / 5)) = .posInf := by
      unfold Scalar.pickMax
      exact if_neg fun h => h.1
    have hmin : Scalar.pickMin .posInf (Extended.finite (4 * width / 5)) = .finite (4 * width / 5) := by
      unfold Scalar.pickMin
      exact if_pos ⟨trivial, id⟩
    rw [hmax, hmin]
    exact Or.inr ⟨_, rfl, hle, le_refl _⟩
  | negInf =>
    have hmax : Scalar.pickMax .negInf (Extended.finite (width / 5)) = .finite (width / 5) := by
      unfold Scalar.pickMax
      exact if_pos ⟨trivial, id⟩
    rw [hmax, pickMin_finite]
    exact Or.inr ⟨_, rfl, le_min (le_refl _) hle, min_le_right _ _⟩
  | nan =>
    have hmax : Scalar.pickMax .nan (Extended.finite (width / 5)) = .nan := by
      unfold Scalar.pickMax
      exact if_neg fun h => h.1
    have hmin : Scalar.pickMin .nan (Extended.finite (4 * width / 5)) = .nan := by
      unfold Scalar.pickMin
      refine if_neg fun h => h.1.elim
    rw [hmax, hmin]
    exact Or.inl rfl

theorem bracketIncrement_finite {width : ℝ} {high : Extended} (hwidth : 0 < width)
    (hhigh : high = .posInf ∨ ∃ g, high = .finite g ∧ f + slope * width < g) :
    ∃ s, bracketIncrement (.finite slope) (.finite width) (.finite f) high = .finite s ∧
      width / 5 ≤ s ∧ s ≤ 4 * width / 5 := by
  have hlow : (0.2 : Extended) * .finite width = .finite (width / 5) := ofScientific_mul (by ring)
  have hup : (0.8 : Extended) * .finite width = .finite (4 * width / 5) := ofScientific_mul (by ring)
  have hsuggestion : ∃ x, -0.5 * Extended.finite slope * Scalar.square (.finite width) /
      (high - .finite f - .finite slope * .finite width) = .finite x := by
    cases hhigh with
    | inl hinf =>
      -- The quotient by an infinite number is zero, which the lower end replaces.
      rw [hinf]
      exact ⟨_, rfl⟩
    | inr hfin =>
      obtain ⟨g, rfl, hg⟩ := hfin
      have hden : g - f - slope * width ≠ 0 := by
        intro h
        linarith
      simp only [ofScientific_eq, finite_neg, square_finite, finite_mul, finite_sub, finite_div hden]
      exact ⟨_, rfl⟩
  obtain ⟨x, hx⟩ := hsuggestion
  unfold bracketIncrement
  rw [hlow, hup, hx]
  dsimp only
  rw [pickMax_finite, pickMin_finite]
  refine ⟨_, rfl, le_min (le_max_right _ _) ?_, min_le_right _ _⟩
  linarith

end BoxDescent.LineSearch

import BoxDescent.Proofs.Exact.Line
import BoxDescent.Proofs.Exact.Secant
import BoxDescent.Proofs.Solver.Round

/-!
This module contains what a round of the solver looks at in exact arithmetic. In one variable the factors
are a number, to which an update adds the two terms of the quasi-Newton formula (`Line.updateFactor_eq`).
-/

namespace BoxDescent

open Extended

namespace Solver

variable {n : Nat} {s : Iterate Extended n} {r : SearchResult Extended n}

theorem start_direction (b : Bounds Extended n) (x : Vector Extended n) (value : Extended)
    (g : Fin n → ℝ) : (start b x value (ofReals g)).direction = ofReals fun i => -g i := by
  rw [eq_ofReals_iff]
  intro i
  unfold start
  rw [getElem_vectorOfFn, getElem_ofReals, finite_neg]

theorem difference_ofReals (u v : Fin n → ℝ) :
    difference (ofReals u) (ofReals v) = ofReals fun i => u i - v i := by
  rw [eq_ofReals_iff]
  intro i
  unfold difference
  rw [getElem_vectorOfFn, getElem_ofReals, getElem_ofReals, finite_sub]

theorem progress_displacement {x₀ x₁ : Fin n → ℝ} (hx : s.x = ofReals x₀) (hr : r.x = ofReals x₁)
    (grad : Vector Extended n) :
    (s.progress r grad).displacement = ofReals fun i => x₁ i - x₀ i := by
  unfold Iterate.progress
  dsimp only
  rw [hx, hr, difference_ofReals]

theorem progress_gradChange {g₀ : Fin n → ℝ} (g₁ : Fin n → ℝ) (hg : s.grad = ofReals g₀) :
    (s.progress r (ofReals g₁)).gradChange =
      ofReals fun i => if r.activeSet.fixed[i] then 0 else g₁ i - g₀ i := by
  unfold Iterate.progress
  dsimp only
  rw [eq_ofReals_iff]
  intro i
  rw [getElem_vectorOfFn, hg]
  split
  . rfl
  . rw [getElem_ofReals, getElem_ofReals, finite_sub]

theorem progress_curvature {grad : Vector Extended n} {u v : Fin n → ℝ}
    (hu : (s.progress r grad).displacement = ofReals u)
    (hv : (s.progress r grad).gradChange = ofReals v) :
    (s.progress r grad).curvature = .finite (∑ i ∈ freeSet r.activeSet.fixed, u i * v i) := by
  have hcurvature : (s.progress r grad).curvature = dotOver (unmasked r.activeSet.fixed)
      (s.progress r grad).displacement (s.progress r grad).gradChange := rfl
  rw [hcurvature, hu, hv, dotOver_ofReals, sum_unmasked]

end Solver

namespace Line

section Factor

variable {d c g s : ℝ}

def factor (d : ℝ) : Factor Extended 1 :=
  .ofReals (fun _ _ => 1) fun _ => d

theorem isUnitLower_one : Factor.IsUnitLower fun _ _ : Fin 1 => (1 : ℝ) where
  diag := fun _ => rfl
  above := by
    intro i j hij
    rw [Subsingleton.elim i j] at hij
    exact absurd hij (lt_irrefl j)

theorem eq_one {l : Fin 1 → Fin 1 → ℝ} (hl : Factor.IsUnitLower l) : l = fun _ _ => 1 := by
  funext i j
  rw [Subsingleton.elim i j, hl.diag]

theorem identity_eq : (Factor.identity : Factor Extended 1) = factor 1 := by
  rw [Factor.identity_ofReals, eq_one Factor.isUnitLower_identity]
  rfl

theorem product_one (d : Fin 1 → ℝ) : Factor.product (fun _ _ => 1) d (freeSet free) 0 0 = d 0 := by
  have hfree : freeSet free = {0} := rfl
  unfold Factor.product
  rw [hfree, Finset.sum_singleton, one_mul, mul_one]

theorem direction_eq (hd : 0 < d) (g : ℝ) :
    (factor d).direction (point g) free = .ok (point (-g / d)) := by
  have hfree : freeSet free = {0} := rfl
  have hpositive : ∀ i : Fin 1, free[i] = false → 0 < d := fun _ _ => hd
  obtain ⟨p, hp, hdirection⟩ := Factor.direction_ofReals isUnitLower_one hpositive fun _ => g
  have hrow := hdirection.onFree 0 rfl
  rw [hfree, Finset.sum_singleton, ← hfree, product_one] at hrow
  refine hp.trans ?_
  unfold point
  rw [Except.ok.injEq, ofReals_inj]
  funext i
  rw [Subsingleton.elim i 0, eq_div_iff hd.ne', mul_comm]
  exact hrow

theorem direction_fixed (d g : ℝ) {fixed : Vector Bool 1} (hfixed : fixed[(0 : Fin 1)] = true) :
    (factor d).direction (point g) fixed = .ok (point 0) := by
  have hnone : ∀ i : Fin 1, fixed[i] = false → 0 < d := by
    intro i hi
    rw [Subsingleton.elim i 0, hfixed] at hi
    cases hi
  obtain ⟨p, hp, hdirection⟩ := Factor.direction_ofReals isUnitLower_one (d := fun _ => d) hnone fun _ => g
  refine hp.trans ?_
  unfold point
  rw [Except.ok.injEq, ofReals_inj]
  funext i
  rw [Subsingleton.elim i 0, hdirection.onFixed 0 hfixed]

theorem reset_eq (d e : ℝ) : (factor d).reset 0 (.finite e) = factor e := by
  unfold factor
  rw [Factor.reset_ofReals, eq_one (isUnitLower_one.withoutRow 0)]
  congr 1
  funext i
  rw [Subsingleton.elim i 0, Function.update_self]

theorem increase_eq (hd : 0 < d) (hc : 0 < c) (v : ℝ) :
    (factor d).increase (point v) (.finite c) free = factor (d + c * (v * v)) := by
  obtain ⟨l, e, hincrease, hup⟩ := Factor.increase_ofReals free isUnitLower_one
    (d := fun _ => d) (fun _ _ => hd) (fun _ => v) hc
  have hproduct := hup.product_eq 0 0 rfl rfl
  rw [eq_one hup.unitLower, product_one, product_one] at hproduct
  refine hincrease.trans ?_
  unfold factor
  rw [eq_one hup.unitLower, ← hproduct]
  congr 1
  funext i
  rw [Subsingleton.elim i 0]

theorem decrease_eq (hd : 0 < d) (v : ℝ) (hend : 0 ≤ d + c * (v * v)) (zero : ℝ) :
    (factor d).decrease (point v) (.finite c) free (.finite zero) = .ok (factor (d + c * (v * v))) := by
  -- There is no floor here, as the only column is the last one.
  obtain ⟨ps, hsolve, hps⟩ := Factor.exists_isReduced free isUnitLower_one fun _ => v
  have hv : ps 0 = v := by
    have hrow := hps.onFree 0 rfl
    rw [Fin.sum_univ_one, one_mul] at hrow
    exact hrow
  have hmass : Factor.mass (fun _ => d) ps (unmasked free) = ps 0 * ps 0 / d := by
    unfold Factor.mass
    rw [unmasked_free, List.map_singleton, List.sum_singleton]
  have hratio : Factor.ratio c (fun _ => d) ps (unmasked free) * d = d + c * (v * v) := by
    unfold Factor.ratio
    rw [hmass, hv]
    field_simp
  have hnonneg : 0 ≤ Factor.ratio c (fun _ => d) ps (unmasked free) := by
    rw [← hratio] at hend
    exact nonneg_of_mul_nonneg_left hend hd
  have hroot := Factor.Decrease.sigma_start hnonneg
  rw [hmass] at hroot
  obtain ⟨t, beta, hstep, _, _, hout, _⟩ := Factor.Decrease.step_ofReals ps free zero
    (l := fun _ _ => 1) (d := fun _ => d) (c := .finite c) (j := 0)
    (s := Factor.Decrease.initial (fun _ => d) (fun _ => v) ps c free) rfl rfl rfl hd nofun
  have hdiag : Factor.Decrease.factor zero
      (c / (1 + Real.sqrt (Factor.ratio c (fun _ => d) ps (unmasked free))))
      (Factor.mass (fun _ => d) ps (unmasked free)) (ps 0 * ps 0 / d) true * d = d + c * (v * v) := by
    unfold Factor.Decrease.factor Factor.Decrease.floored
    rw [hmass, hroot, sub_self, max_self, mul_zero, if_neg fun h => absurd h.1 (by decide), add_zero,
      add_sub_cancel, Real.mul_self_sqrt hnonneg, hratio]
  have hlast : Factor.Decrease.isLast (0 : Fin 1) = true := rfl
  rw [hlast, hdiag] at hout
  have hfactor : t.out = factor (d + c * (v * v)) := by
    rw [hout]
    rfl
  unfold factor point
  rw [Factor.Decrease.decrease_eq (fun _ _ => hd) hsolve, unmasked_free, List.foldlM_cons, hstep]
  exact congrArg Except.ok hfactor

theorem updateFactor_eq (hd : 0 < d) (hc : 0 < c) (hs : s < 0) {y : ℝ}
    (hend : 0 ≤ d + y * y / c + g * g / s) (zero : ℝ) :
    Solver.updateFactor (.finite zero) (factor d) free (point y) (.finite c) (point g) (.finite s) =
      .ok (factor (d + y * y / c + g * g / s)) := by
  have hup : d + 1 / c * (y * y) = d + y * y / c := by ring
  have hdown : d + y * y / c + 1 / s * (g * g) = d + y * y / c + g * g / s := by ring
  have hpos : 0 < d + y * y / c := add_pos_of_pos_of_nonneg hd (div_nonneg (mul_self_nonneg y) hc.le)
  rw [Factor.updateFactor_eq hc hs, increase_eq hd (one_div_pos.mpr hc), hup,
    decrease_eq hpos g (by rw [hdown]; exact hend), hdown]

end Factor

section Progress

variable {s : Solver.Iterate Extended 1} {r : SearchResult Extended 1} {x g y w d v zero : ℝ}

theorem displacement_point (y x : ℝ) :
    Solver.displacement (point y) (point x) = .ok (.finite (|y - x| / max |y| 1)) := by
  have hpos : 0 < max |y| 1 := lt_of_lt_of_le one_pos (le_max_right _ _)
  show Except.ok (Scalar.abs ((point y)[(0 : Fin 1)] - (point x)[(0 : Fin 1)]) /
    Scalar.maximum (Scalar.abs (point y)[(0 : Fin 1)]) 1) = _
  rw [getElem_point, getElem_point, finite_sub, abs_finite, abs_finite, one_eq, maximum_finite,
    finite_div hpos.ne']

/-- The search has gone from `x`, where the gradient is `g`, along `d` to `y` and reached no bound. -/
structure Moves (s : Solver.Iterate Extended 1) (r : SearchResult Extended 1) (x g y d : ℝ) : Prop where
  start : s.x = point x
  grad : s.grad = point g
  x_eq : r.x = point y
  direction : r.direction = point d
  fixed : r.activeSet.fixed = free

namespace Moves

variable (h : Moves s r x g y d) (w : ℝ)
include h

theorem displacement : (s.progress r (point w)).displacement = point (y - x) :=
  Solver.progress_displacement h.start h.x_eq _

theorem gradChange : (s.progress r (point w)).gradChange = point (w - g) := by
  have hchange := Solver.progress_gradChange (r := r) (fun _ => w) h.grad
  simp only [h.fixed, getElem_replicate, Bool.false_eq_true, if_false] at hchange
  exact hchange

theorem curvature : (s.progress r (point w)).curvature = .finite ((y - x) * (w - g)) := by
  have hcurvature : (s.progress r (point w)).curvature = dotOver (unmasked r.activeSet.fixed)
      (s.progress r (point w)).displacement (s.progress r (point w)).gradChange := rfl
  rw [hcurvature, h.fixed, unmasked_free, h.displacement, h.gradChange, dotOver_point]

theorem totalCurvature : (s.progress r (point w)).totalCurvature = .finite ((y - x) * (w - g)) := by
  have hheld : (s.progress r (point w)).heldCurvature = .finite 0 := by
    have hmasked : masked r.activeSet.fixed = [] := by
      rw [h.fixed]
      rfl
    unfold Solver.Iterate.progress
    dsimp only
    rw [hmasked]
    rfl
  unfold Solver.Progress.totalCurvature
  rw [h.curvature, hheld, finite_add, add_zero]

theorem gradientTest (hv : r.value = .finite v) : (s.progress r (point w)).gradientTest =
    .finite (max 0 (|w| * max |d| 1 / max |v| 1)) := by
  have hpos : 0 < max |v| 1 := lt_of_lt_of_le one_pos (le_max_right _ _)
  have htest : (s.progress r (point w)).gradientTest =
      Solver.gradientTest (point w) r.direction r.value (unmasked r.activeSet.fixed) := rfl
  rw [htest, h.fixed, h.direction, hv]
  show Scalar.maximum 0 (Scalar.abs (point w)[(0 : Fin 1)] *
    Scalar.maximum (Scalar.abs (point d)[(0 : Fin 1)]) 1 / Scalar.pickMax (Scalar.abs (.finite v)) 1) = _
  rw [getElem_point, getElem_point, abs_finite, abs_finite, abs_finite, one_eq, maximum_finite,
    pickMax_finite, finite_mul, finite_div hpos.ne', zero_eq, maximum_finite]

theorem not_converged (hv : r.value = .finite v) (hgrad : zero ≤ |w| * max |d| 1 / max |v| 1)
    (hcurved : zero ≤ (y - x) * (w - g)) : (s.progress r (point w)).converged (.finite zero) = false := by
  unfold Solver.Progress.converged
  rw [h.gradientTest w hv, h.totalCurvature, abs_finite, Bool.or_eq_false_iff, decide_eq_false_iff_not,
    decide_eq_false_iff_not, finite_lt, finite_lt, not_lt, not_lt]
  exact ⟨le_max_of_le_right hgrad, hcurved.trans (le_abs_self _)⟩

theorem isCurved_iff (zero : ℝ) :
    (s.progress r (point w)).isCurved (.finite zero) r.activeSet.free = true ↔
      max (zero * |y - x| * |w - g|) zero ≤ (y - x) * (w - g) := by
  have hfree : r.activeSet.free = [0] := congrArg unmasked h.fixed
  unfold Solver.Progress.isCurved
  rw [h.curvature, h.displacement, h.gradChange, hfree, normOver_point, normOver_point, finite_mul,
    finite_mul, pickMax_finite, Bool.not_eq_true', decide_eq_false_iff_not, finite_lt, not_lt]

theorem isCurved (hzero : 0 ≤ zero) (hone : zero ≤ 1) (hcurved : zero ≤ (y - x) * (w - g)) :
    (s.progress r (point w)).isCurved (.finite zero) r.activeSet.free = true := by
  have hmul : zero * |y - x| * |w - g| ≤ (y - x) * (w - g) := by
    rw [mul_assoc, ← abs_mul, abs_of_nonneg (hzero.trans hcurved)]
    exact mul_le_of_le_one_left (hzero.trans hcurved) hone
  exact (h.isCurved_iff w zero).mpr (max_le hmul hcurved)

end Moves

end Progress

end Line

end BoxDescent

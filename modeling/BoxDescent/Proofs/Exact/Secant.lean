import BoxDescent.Solver
import BoxDescent.Proofs.Exact.Increase
import BoxDescent.Proofs.Exact.Decrease

/-!
This module contains the pair of rank-one updates in exact arithmetic. If the curvature along a multiple
of the direction is positive, the decrease along the old gradient leaves the matrix positive definite
(`ratio_pos`). Without a floor the result is the matrix of the quasi-Newton formula, which satisfies the
secant equation (`updateFactor_secant`).
-/

namespace BoxDescent

open Extended

namespace Factor

variable {n : Nat} {l l' : Fin n → Fin n → ℝ} {d d' grad p y : Fin n → ℝ} {fixed : Vector Bool n}
  {step : ℝ}

theorem update_of_pos {f : Factor Extended n} {v : Vector Extended n} {coeff : ℝ} {zero : Extended}
    (h : 0 < coeff) :
    f.update v (.finite coeff) fixed zero = .ok (f.increase v (.finite coeff) fixed) := by
  unfold update
  rw [zero_eq, equal_finite, decide_eq_false h.ne', if_neg Bool.false_ne_true, if_pos]
  rw [finite_lt]
  exact h

theorem update_of_neg {f : Factor Extended n} {v : Vector Extended n} {coeff : ℝ} {zero : Extended}
    (h : coeff < 0) :
    f.update v (.finite coeff) fixed zero = f.decrease v (.finite coeff) fixed zero := by
  unfold update
  rw [zero_eq, equal_finite, decide_eq_false h.ne, if_neg Bool.false_ne_true, if_neg]
  rw [finite_lt]
  exact h.not_gt

theorem updateFactor_eq {f : Factor Extended n} {y grad : Vector Extended n} {curvature slope : ℝ}
    {zero : Extended} (hcurvature : 0 < curvature) (hslope : slope < 0) :
    Solver.updateFactor zero f fixed y (.finite curvature) grad (.finite slope) =
      (f.increase y (.finite (1 / curvature)) fixed).decrease grad (.finite (1 / slope)) fixed zero := by
  unfold Solver.updateFactor
  rw [zero_eq, equal_finite, decide_eq_false hslope.ne, if_neg Bool.false_ne_true, one_eq,
    finite_div hcurvature.ne', finite_div hslope.ne, update_of_pos (one_div_pos.mpr hcurvature)]
  exact update_of_neg (one_div_neg.mpr hslope)

theorem exists_pullback_eq (fixed : Vector Bool n) (hl : IsUnitLower l) (w : Fin n → ℝ) :
    ∃ u : Fin n → ℝ, ∀ j ∈ freeSet fixed, pullback l (freeSet fixed) u j = w j := by
  obtain ⟨u, _, hfixed, hfree⟩ := Triangle.solve_ofReals fixed (isTriangular_transpose hl)
    (fun j _ => by rw [hl.diag]; exact one_ne_zero) w
  refine ⟨u, ?_⟩
  intro j hj
  rw [← hfree j (mem_freeSet.mp hj)]
  unfold pullback
  symm
  apply sum_eq_freeSet
  intro k hk
  rw [hfixed k hk, mul_zero]

theorem IsReduced.mass_eq {v ps u : Fin n → ℝ} (h : IsReduced l v fixed ps)
    (hd : ∀ i : Fin n, fixed[i] = false → 0 < d i)
    (hu : ∀ j ∈ freeSet fixed, pullback l (freeSet fixed) u j = ps j / d j) :
    (∀ i ∈ freeSet fixed, ∑ k ∈ freeSet fixed, product l d (freeSet fixed) i k * u k = v i) ∧
      mass d ps (unmasked fixed) = ∑ i ∈ freeSet fixed, u i * v i := by
  have hsolve : ∀ i ∈ freeSet fixed,
      ∑ k ∈ freeSet fixed, product l d (freeSet fixed) i k * u k = v i := by
    intro i hi
    rw [sum_product, ← h.sum_list (mem_freeSet.mp hi), sum_unmasked]
    apply Finset.sum_congr rfl
    intro j hj
    have hdj := (hd j (mem_freeSet.mp hj)).ne'
    rw [hu j hj]
    field_simp
  refine ⟨hsolve, ?_⟩
  have hform : ∑ i ∈ freeSet fixed, u i * v i =
      ∑ i ∈ freeSet fixed, u i * ∑ k ∈ freeSet fixed, product l d (freeSet fixed) i k * u k := by
    apply Finset.sum_congr rfl
    intro i hi
    rw [hsolve i hi]
  unfold mass
  rw [hform, sum_form, sum_unmasked]
  apply Finset.sum_congr rfl
  intro j hj
  have hdj := (hd j (mem_freeSet.mp hj)).ne'
  rw [hu j hj]
  field_simp

theorem Updated.sum_product {v : Fin n → ℝ} {coeff : ℝ} (h : Updated l d v coeff fixed l' d')
    (w : Fin n → ℝ) {i : Fin n} (hi : i ∈ freeSet fixed) :
    ∑ k ∈ freeSet fixed, product l' d' (freeSet fixed) i k * w k =
      ∑ k ∈ freeSet fixed, product l d (freeSet fixed) i k * w k +
        coeff * v i * ∑ k ∈ freeSet fixed, v k * w k := by
  rw [Finset.mul_sum, ← Finset.sum_add_distrib]
  apply Finset.sum_congr rfl
  intro k hk
  rw [h.product_eq i k (mem_freeSet.mp hi) (mem_freeSet.mp hk)]
  ring

section Positive

variable {u : Fin n → ℝ}

theorem inner_pos (hstep : 0 < step) (hcurvature : 0 < ∑ i ∈ freeSet fixed, step * p i * y i) :
    0 < ∑ i ∈ freeSet fixed, p i * y i := by
  simp only [mul_assoc, ← Finset.mul_sum] at hcurvature
  exact (mul_pos_iff_of_pos_left hstep).mp hcurvature

theorem solve_old {c : ℝ} (hup : Updated l d y c fixed l' d')
    (hsolve : ∀ i ∈ freeSet fixed,
      ∑ k ∈ freeSet fixed, product l' d' (freeSet fixed) i k * u k = grad i)
    {i : Fin n} (hi : i ∈ freeSet fixed) :
    ∑ k ∈ freeSet fixed, product l d (freeSet fixed) i k * u k =
      grad i - c * y i * ∑ k ∈ freeSet fixed, y k * u k := by
  rw [← hsolve i hi, hup.sum_product u hi]
  ring

theorem form_add {c : ℝ} (hp : IsDirection l d grad fixed p) (hup : Updated l d y c fixed l' d')
    (hsolve : ∀ i ∈ freeSet fixed,
      ∑ k ∈ freeSet fixed, product l' d' (freeSet fixed) i k * u k = grad i) :
    ∑ i ∈ freeSet fixed, (u i + p i) *
        ∑ k ∈ freeSet fixed, product l d (freeSet fixed) i k * (u k + p k) =
      -(c * (∑ k ∈ freeSet fixed, y k * u k) *
        (∑ k ∈ freeSet fixed, y k * u k + ∑ i ∈ freeSet fixed, p i * y i)) := by
  have hrow : ∀ i ∈ freeSet fixed,
      ∑ k ∈ freeSet fixed, product l d (freeSet fixed) i k * (u k + p k) =
        -(c * y i * ∑ k ∈ freeSet fixed, y k * u k) := by
    intro i hi
    simp only [mul_add, Finset.sum_add_distrib]
    rw [solve_old hup hsolve hi, hp.onFree i (mem_freeSet.mp hi)]
    ring
  rw [Finset.sum_congr rfl fun i hi => by rw [hrow i hi], ← Finset.sum_add_distrib, Finset.mul_sum,
    ← Finset.sum_neg_distrib]
  apply Finset.sum_congr rfl
  intro i _
  ring

theorem inner_neg {c : ℝ} (hl : IsUnitLower l) (hd : ∀ i : Fin n, fixed[i] = false → 0 < d i)
    (hp : IsDirection l d grad fixed p) (hc : 0 < c) (hpy : 0 < ∑ i ∈ freeSet fixed, p i * y i)
    (hup : Updated l d y c fixed l' d')
    (hsolve : ∀ i ∈ freeSet fixed,
      ∑ k ∈ freeSet fixed, product l' d' (freeSet fixed) i k * u k = grad i) :
    ∑ k ∈ freeSet fixed, y k * u k < 0 := by
  have hform := form_add hp hup hsolve
  have hd' : ∀ j ∈ freeSet fixed, 0 < d j := fun j hj => hd j (mem_freeSet.mp hj)
  apply Classical.byContradiction
  intro hge
  rw [not_lt] at hge
  -- Otherwise the form at `u + p` would be negative, or `u` be `-p`, which goes against `y`.
  by_cases hzero : ∃ i ∈ freeSet fixed, u i + p i ≠ 0
  . have hpos := hl.form_pos hd' hzero
    rw [hform, neg_pos] at hpos
    exact absurd hpos (not_lt.mpr (mul_nonneg (mul_nonneg hc.le hge) (by linarith)))
  . have hsum : ∑ k ∈ freeSet fixed, y k * u k = -∑ i ∈ freeSet fixed, p i * y i := by
      rw [← Finset.sum_neg_distrib]
      apply Finset.sum_congr rfl
      intro i hi
      have hui : u i + p i = 0 := by
        apply Classical.byContradiction
        intro hne
        exact hzero ⟨i, hi, hne⟩
      rw [eq_neg_of_add_eq_zero_left hui]
      ring
    linarith

end Positive

theorem ratio_pos {ps : Fin n → ℝ} (hl : IsUnitLower l)
    (hd : ∀ i : Fin n, fixed[i] = false → 0 < d i) (hp : IsDirection l d grad fixed p)
    (hstep : 0 < step) (hcurvature : 0 < ∑ i ∈ freeSet fixed, step * p i * y i)
    (hslope : ∑ i ∈ freeSet fixed, grad i * p i < 0)
    (hup : Updated l d y (1 / ∑ i ∈ freeSet fixed, step * p i * y i) fixed l' d')
    (hps : IsReduced l' grad fixed ps) :
    0 < ratio (1 / ∑ i ∈ freeSet fixed, grad i * p i) d' ps (unmasked fixed) := by
  obtain ⟨u, hu⟩ := exists_pullback_eq fixed hup.unitLower fun j => ps j / d' j
  obtain ⟨hsolve, hmass⟩ := hps.mass_eq hup.positive hu
  have hpy := inner_pos hstep hcurvature
  have hyu := inner_neg hl hd hp (one_div_pos.mpr hcurvature) hpy hup hsolve
  -- The form between `u` and `p`, in both orders.
  have hleft : ∑ i ∈ freeSet fixed, p i *
        ∑ k ∈ freeSet fixed, product l d (freeSet fixed) i k * u k =
      ∑ i ∈ freeSet fixed, grad i * p i - 1 / (∑ i ∈ freeSet fixed, step * p i * y i) *
        (∑ k ∈ freeSet fixed, y k * u k) * ∑ i ∈ freeSet fixed, p i * y i := by
    rw [Finset.mul_sum, ← Finset.sum_sub_distrib]
    apply Finset.sum_congr rfl
    intro i hi
    rw [solve_old hup hsolve hi]
    ring
  have hright : ∑ i ∈ freeSet fixed, u i *
        ∑ k ∈ freeSet fixed, product l d (freeSet fixed) i k * p k =
      -∑ i ∈ freeSet fixed, u i * grad i := by
    rw [← Finset.sum_neg_distrib]
    apply Finset.sum_congr rfl
    intro i hi
    rw [hp.onFree i (mem_freeSet.mp hi)]
    ring
  rw [sum_form_comm, hright] at hleft
  have hmul : 0 < -(1 / (∑ i ∈ freeSet fixed, step * p i * y i) *
      (∑ k ∈ freeSet fixed, y k * u k) * ∑ i ∈ freeSet fixed, p i * y i) := by
    rw [← neg_mul, ← mul_neg]
    exact mul_pos (mul_pos (one_div_pos.mpr hcurvature) (neg_pos.mpr hyu)) hpy
  have hlt : mass d' ps (unmasked fixed) < -∑ i ∈ freeSet fixed, grad i * p i := by
    rw [hmass]
    linarith
  unfold ratio
  rw [one_div_mul_eq_div, ← neg_lt_iff_pos_add', lt_div_iff_of_neg hslope]
  linarith

theorem secant {l₂ : Fin n → Fin n → ℝ} {d₂ : Fin n → ℝ} (hp : IsDirection l d grad fixed p)
    (hcurvature : ∑ i ∈ freeSet fixed, step * p i * y i ≠ 0)
    (hslope : ∑ i ∈ freeSet fixed, grad i * p i ≠ 0)
    (hup : Updated l d y (1 / ∑ i ∈ freeSet fixed, step * p i * y i) fixed l' d')
    (hdown : Updated l' d' grad (1 / ∑ i ∈ freeSet fixed, grad i * p i) fixed l₂ d₂) {i : Fin n}
    (hi : i ∈ freeSet fixed) :
    ∑ k ∈ freeSet fixed, product l₂ d₂ (freeSet fixed) i k * (step * p k) = y i := by
  have hgrad : ∑ k ∈ freeSet fixed, grad k * (step * p k) =
      step * ∑ k ∈ freeSet fixed, grad k * p k := by
    rw [Finset.mul_sum]
    apply Finset.sum_congr rfl
    intro k _
    ring
  have hy : ∑ k ∈ freeSet fixed, y k * (step * p k) = ∑ k ∈ freeSet fixed, step * p k * y k := by
    apply Finset.sum_congr rfl
    intro k _
    ring
  have hrow : ∑ k ∈ freeSet fixed, product l d (freeSet fixed) i k * (step * p k) =
      step * -grad i := by
    rw [← hp.onFree i (mem_freeSet.mp hi), Finset.mul_sum]
    apply Finset.sum_congr rfl
    intro k _
    ring
  rw [hdown.sum_product _ hi, hup.sum_product _ hi, hgrad, hy, hrow]
  field_simp
  ring

theorem Updated.product_univ {v : Fin n → ℝ} {coeff : ℝ} (h : Updated l d v coeff fixed l' d')
    (i k : Fin n) : product l' d' Finset.univ i k = product l' d' (freeSet fixed) i k := by
  unfold product
  apply sum_eq_freeSet
  intro j hj
  rw [h.diag j hj, mul_zero, zero_mul]

theorem Updated.sum_univ {v : Fin n → ℝ} {coeff : ℝ} (h : Updated l d v coeff fixed l' d')
    {w : Fin n → ℝ} (hw : ∀ i : Fin n, fixed[i] = true → w i = 0) (i : Fin n) :
    ∑ k, product l' d' Finset.univ i k * w k =
      ∑ k ∈ freeSet fixed, product l' d' (freeSet fixed) i k * w k := by
  simp only [h.product_univ]
  apply sum_eq_freeSet
  intro k hk
  rw [hw k hk, mul_zero]

theorem updateFactor_floored (fixed : Vector Bool n) {zero curvature slope : ℝ} (hzero : 0 < zero)
    (hl : IsUnitLower l) (hd : ∀ i : Fin n, fixed[i] = false → 0 < d i) (y grad : Fin n → ℝ)
    (hcurvature : 0 < curvature) (hslope : slope < 0) :
    ∃ l₂ d₂, Solver.updateFactor (.finite zero) (ofReals l d) fixed (BoxDescent.ofReals y)
        (.finite curvature) (BoxDescent.ofReals grad) (.finite slope) = .ok (ofReals l₂ d₂) ∧
      IsUnitLower l₂ ∧ (∀ i : Fin n, fixed[i] = false → 0 ≤ d₂ i ∧
        (Decrease.isLast i = false → 0 < d₂ i)) ∧
      ∀ (step : ℝ) (p : Fin n → ℝ), 0 < step → IsDirection l d grad fixed p →
        ∑ i ∈ freeSet fixed, step * p i * y i = curvature →
        ∑ i ∈ freeSet fixed, grad i * p i = slope → ∀ i : Fin n, fixed[i] = false → 0 < d₂ i := by
  obtain ⟨l₁, d₁, hincrease, hup⟩ := increase_ofReals fixed hl hd y (one_div_pos.mpr hcurvature)
  obtain ⟨ps, hsolve, hps⟩ := exists_isReduced fixed hup.unitLower grad
  obtain ⟨l₂, d₂, hdecrease, hwritten, hdiag⟩ :=
    decrease_floored (1 / slope) hzero hup.positive hsolve
  refine ⟨l₂, d₂, ?_, hwritten.isUnitLower, ?_, ?_⟩
  . rw [updateFactor_eq hcurvature hslope, hincrease]
    exact hdecrease
  . intro i hi
    obtain ⟨hnonneg, hfloor, _⟩ := hdiag i hi
    exact ⟨hnonneg, fun hlast => (mul_pos hzero (hup.positive i hi)).trans_le (hfloor hlast)⟩
  . intro step p hstep hp hc hs i hi
    subst hc hs
    exact (hdiag i hi).2.2 (ratio_pos hl hd hp hstep hcurvature hslope hup hps)

end Factor

/-- The updates after a step along the direction never fail without a floor. On the free variables the new
matrix is that of the quasi-Newton formula; it is positive there and takes the step to the change of the
gradient. -/
theorem updateFactor_secant {n : Nat} {l : Fin n → Fin n → ℝ} {d : Fin n → ℝ} {fixed : Vector Bool n}
    (hl : Factor.IsUnitLower l) (hd : ∀ i : Fin n, fixed[i] = false → 0 < d i) {grad : Fin n → ℝ}
    (hgrad : ∃ i : Fin n, fixed[i] = false ∧ grad i ≠ 0) :
    ∃ p, (Factor.ofReals l d).direction (ofReals grad) fixed = .ok (ofReals p) ∧
      ∀ (step : ℝ) (y : Fin n → ℝ), 0 < step → 0 < ∑ i ∈ freeSet fixed, y i * (step * p i) →
        ∃ l₂ d₂, Solver.updateFactor 0 (Factor.ofReals l d) fixed (ofReals y)
            (dotOver (unmasked fixed) (ofReals y) (ofReals fun i => step * p i)) (ofReals grad)
            (dotOver (unmasked fixed) (ofReals grad) (ofReals p)) = .ok (Factor.ofReals l₂ d₂) ∧
          Factor.IsUnitLower l₂ ∧
          (∀ i j : Fin n, i ≠ j → fixed[i] = true ∨ fixed[j] = true → l₂ i j = 0) ∧
          (∀ j : Fin n, fixed[j] = false → 0 < d₂ j) ∧
          (∀ i k : Fin n, fixed[i] = false → fixed[k] = false →
            ∑ j, l₂ i j * d₂ j * l₂ k j = ∑ j ∈ freeSet fixed, l i j * d j * l k j +
              y i * y k / (∑ j ∈ freeSet fixed, y j * (step * p j)) +
              grad i * grad k / ∑ j ∈ freeSet fixed, grad j * p j) ∧
          ∀ i : Fin n, fixed[i] = false →
            ∑ k, (∑ j, l₂ i j * d₂ j * l₂ k j) * (step * p k) = y i := by
  obtain ⟨p, hdirection, hp⟩ := Factor.direction_ofReals hl hd grad
  have hslope := hp.slope_neg hl hd (by
    obtain ⟨i, hi, hne⟩ := hgrad
    exact ⟨i, mem_freeSet.mpr hi, hne⟩)
  refine ⟨p, hdirection, ?_⟩
  intro step y hstep hcurvature
  have hcomm : ∑ i ∈ freeSet fixed, y i * (step * p i) = ∑ i ∈ freeSet fixed, step * p i * y i := by
    apply Finset.sum_congr rfl
    intro i _
    ring
  rw [hcomm] at hcurvature
  obtain ⟨l₁, d₁, hincrease, hup⟩ := Factor.increase_ofReals fixed hl hd y (one_div_pos.mpr hcurvature)
  obtain ⟨ps, hsolve, hps⟩ := Factor.exists_isReduced fixed hup.unitLower grad
  have hratio := Factor.ratio_pos hl hd hp hstep hcurvature hslope hup hps
  obtain ⟨l₂, d₂, hdecrease, hdown⟩ :=
    Factor.decrease_exact hup.unitLower hup.positive hps hratio hsolve
  refine ⟨l₂, d₂, ?_, hdown.unitLower, hdown.masked, hdown.positive, ?_, ?_⟩
  . rw [dotOver_ofReals, dotOver_ofReals, sum_unmasked, sum_unmasked, hcomm,
      Factor.updateFactor_eq hcurvature hslope, hincrease]
    exact hdecrease
  . intro i k hi hk
    have hold : ∑ j ∈ freeSet fixed, l i j * d j * l k j = Factor.product l d (freeSet fixed) i k := rfl
    have hnew : ∑ j, l₂ i j * d₂ j * l₂ k j = Factor.product l₂ d₂ Finset.univ i k := rfl
    rw [hnew, hold, hdown.product_univ, hdown.product_eq i k hi hk, hup.product_eq i k hi hk, hcomm]
    ring
  . intro i hi
    have hfixed : ∀ k : Fin n, fixed[k] = true → step * p k = 0 := by
      intro k hk
      rw [hp.onFixed k hk, mul_zero]
    exact (hdown.sum_univ hfixed i).trans
      (Factor.secant hp hcurvature.ne' hslope.ne hup hdown (mem_freeSet.mpr hi))

theorem updateFactor_secant_pair :
    ∃ p l₂ d₂, (Factor.ofReals (fun i j : Fin 2 => if i = j then 1 else 0) fun _ => 1).direction
        (ofReals fun _ => 2) #v[false, true] = .ok (ofReals p) ∧
      Solver.updateFactor 0 (Factor.ofReals (fun i j : Fin 2 => if i = j then 1 else 0) fun _ => 1)
        #v[false, true] (ofReals fun _ => -1)
        (dotOver (unmasked #v[false, true]) (ofReals fun _ => -1) (ofReals fun i => 1 * p i))
        (ofReals fun _ => 2)
        (dotOver (unmasked #v[false, true]) (ofReals fun _ => 2) (ofReals p)) =
        .ok (Factor.ofReals l₂ d₂) ∧
      0 < d₂ 0 ∧ ∑ j, l₂ 0 j * d₂ j * l₂ 0 j = 1 / 2 ∧
      ∑ k, (∑ j, l₂ 0 j * d₂ j * l₂ k j) * (1 * p k) = -1 := by
  have hpositive : ∀ i : Fin 2, (#v[false, true] : Vector Bool 2)[i] = false → (0 : ℝ) < 1 :=
    fun _ _ => one_pos
  have hfree : freeSet (#v[false, true] : Vector Bool 2) = {0} := by decide
  have hgrad : ∃ i : Fin 2, (#v[false, true] : Vector Bool 2)[i] = false ∧
      (fun _ : Fin 2 => (2 : ℝ)) i ≠ 0 := ⟨0, rfl, two_ne_zero⟩
  obtain ⟨p, hdirection, hupdate⟩ :=
    updateFactor_secant Factor.isUnitLower_identity hpositive hgrad
  obtain ⟨q, hdirection', hq⟩ := Factor.direction_ofReals Factor.isUnitLower_identity hpositive
    fun _ => 2
  rw [hdirection] at hdirection'
  cases ofReals_inj.mp (Except.ok.inj hdirection')
  have hp : p 0 = -2 := by
    have hrow := hq.onFree 0 rfl
    unfold Factor.product at hrow
    rw [hfree, Finset.sum_singleton, Finset.sum_singleton] at hrow
    dsimp only at hrow
    rw [if_pos rfl, one_mul, one_mul, one_mul] at hrow
    exact hrow
  have hcurvature : 0 < ∑ i ∈ freeSet (#v[false, true] : Vector Bool 2), -1 * (1 * p i) := by
    rw [hfree, Finset.sum_singleton, hp]
    norm_num
  obtain ⟨l₂, d₂, hresult, _, _, hd₂, hformula, hsecant⟩ := hupdate 1 (fun _ => -1) one_pos hcurvature
  refine ⟨p, l₂, d₂, hdirection, hresult, hd₂ 0 rfl, ?_, hsecant 0 rfl⟩
  rw [hformula 0 0 rfl rfl, hfree, Finset.sum_singleton, Finset.sum_singleton, Finset.sum_singleton, hp]
  norm_num

end BoxDescent

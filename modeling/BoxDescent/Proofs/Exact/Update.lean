import BoxDescent.Proofs.Exact.Secant

/-!
This module contains the rank-one updates as a whole, in exact arithmetic: what they do to the matrix, to
the diagonal and to the fixed variables. An increase always succeeds (`update_increases`). A decrease does
without a floor if the new matrix is positive definite (`update_decreases`), and with a floor in any case
(`update_floored`).
-/

namespace BoxDescent

open Extended

namespace Factor

variable {n : Nat} {l l' : Fin n → Fin n → ℝ} {d d' v ps : Fin n → ℝ} {coeff : ℝ}
  {fixed : Vector Bool n} {s : Finset (Fin n)}

namespace IsUnitLower

theorem sum_row (hl : IsUnitLower l) (w : Fin n → ℝ) {i : Fin n} (hi : i ∈ s) :
    ∑ j ∈ s, l i j * w j = w i + ∑ j ∈ s with j < i, l i j * w j := by
  rw [← Finset.add_sum_erase s _ hi, hl.diag, one_mul, add_right_inj]
  symm
  apply Finset.sum_subset
  . intro j hj
    rw [Finset.mem_filter] at hj
    rw [Finset.mem_erase]
    exact ⟨hj.2.ne, hj.1⟩
  . intro j hj hnot
    rw [Finset.mem_erase] at hj
    rw [Finset.mem_filter, not_and] at hnot
    rw [hl.above i j (lt_of_le_of_ne (not_lt.mp (hnot hj.2)) hj.1.symm), zero_mul]

theorem eq_of_sum_row (hl : IsUnitLower l) {x y : Fin n → ℝ}
    (h : ∀ i ∈ s, ∑ j ∈ s, l i j * x j = ∑ j ∈ s, l i j * y j) : ∀ i ∈ s, x i = y i := by
  intro i
  -- From the first entry on, each equation determines one more entry.
  induction i using WellFoundedLT.induction with
  | ind i ih =>
    intro hi
    have hrow := h i hi
    have hbefore : ∑ j ∈ s with j < i, l i j * x j = ∑ j ∈ s with j < i, l i j * y j := by
      apply Finset.sum_congr rfl
      intro j hj
      rw [Finset.mem_filter] at hj
      rw [ih j hj.2 hj.1]
    rw [hl.sum_row x hi, hl.sum_row y hi, hbefore] at hrow
    exact add_right_cancel hrow

theorem exists_unit_pullback (hl : IsUnitLower l) {j : Fin n} (hj : j ∈ freeSet fixed) :
    ∃ u : Fin n → ℝ, (∀ k ∈ freeSet fixed, pullback l (freeSet fixed) u k = if k = j then 1 else 0) ∧
      u j = 1 ∧ ∀ k ∈ freeSet fixed, j < k → u k = 0 := by
  obtain ⟨u, hu⟩ := exists_pullback_eq fixed hl fun k => if k = j then 1 else 0
  have hbelow : ∀ k ∈ freeSet fixed, j < k → u k = 0 := by
    intro k
    induction k using WellFoundedGT.induction with
    | ind k ih =>
      intro hk hjk
      rw [← hl.pullback_of_below hk fun i hi hki => ih i hki hi (hjk.trans hki), hu k hk,
        if_neg hjk.ne']
  refine ⟨u, hu, ?_, hbelow⟩
  rw [← hl.pullback_of_below hj hbelow, hu j hj, if_pos rfl]

end IsUnitLower

theorem Updated.sum_form (h : Updated l d v coeff fixed l' d') (u : Fin n → ℝ) :
    ∑ i ∈ freeSet fixed, u i * ∑ k ∈ freeSet fixed, product l' d' (freeSet fixed) i k * u k =
      ∑ i ∈ freeSet fixed, u i * ∑ k ∈ freeSet fixed, product l d (freeSet fixed) i k * u k +
        coeff * ((∑ k ∈ freeSet fixed, v k * u k) * ∑ k ∈ freeSet fixed, v k * u k) := by
  rw [Finset.sum_mul, Finset.mul_sum, ← Finset.sum_add_distrib]
  apply Finset.sum_congr rfl
  intro i hi
  rw [h.sum_product u hi]
  ring

theorem Updated.le_diag (h : Updated l d v coeff fixed l' d') (hl : IsUnitLower l)
    (hd : ∀ i : Fin n, fixed[i] = false → 0 < d i) (hcoeff : 0 ≤ coeff) {j : Fin n}
    (hj : j ∈ freeSet fixed) : d j ≤ d' j := by
  -- The new entry is the least value of the new form where `u j = 1` and `u` is zero behind `j`.
  obtain ⟨u, hu, hone, hbelow⟩ := h.unitLower.exists_unit_pullback hj
  have hnew : ∑ i ∈ freeSet fixed, u i * ∑ k ∈ freeSet fixed, product l' d' (freeSet fixed) i k * u k =
      d' j := by
    rw [Factor.sum_form, Finset.sum_eq_single_of_mem j hj]
    . rw [hu j hj, if_pos rfl, mul_one, mul_one]
    . intro k hk hkj
      rw [hu k hk, if_neg hkj, mul_zero]
  have hpull : pullback l (freeSet fixed) u j = 1 := by
    rw [hl.pullback_of_below hj hbelow, hone]
  have hold : d j ≤
      ∑ i ∈ freeSet fixed, u i * ∑ k ∈ freeSet fixed, product l d (freeSet fixed) i k * u k := by
    have hterm := Finset.single_le_sum (f := fun k =>
      d k * pullback l (freeSet fixed) u k * pullback l (freeSet fixed) u k) (fun k hk => by
        rw [mul_assoc]
        exact mul_nonneg (hd k (mem_freeSet.mp hk)).le (mul_self_nonneg _)) hj
    rw [hpull, mul_one, mul_one] at hterm
    rw [Factor.sum_form]
    exact hterm
  have hadd := h.sum_form u
  rw [hnew] at hadd
  have := mul_nonneg hcoeff (mul_self_nonneg (∑ k ∈ freeSet fixed, v k * u k))
  linarith

namespace IsReduced

variable {qs : Fin n → ℝ}

theorem eq_of_solves (h : IsReduced l v fixed ps) (hl : IsUnitLower l)
    (hqs : ∀ i : Fin n, fixed[i] = false → ∑ j ∈ freeSet fixed, l i j * qs j = v i) :
    ∀ j ∈ freeSet fixed, ps j = qs j := by
  apply hl.eq_of_sum_row
  intro i hi
  rw [hqs i (mem_freeSet.mp hi), ← h.sum_list (mem_freeSet.mp hi), sum_unmasked]

theorem ratio_eq (h : IsReduced l v fixed ps) (hl : IsUnitLower l)
    (hqs : ∀ i : Fin n, fixed[i] = false → ∑ j ∈ freeSet fixed, l i j * qs j = v i)
    (coeff : ℝ) (d : Fin n → ℝ) :
    ratio coeff d ps (unmasked fixed) = 1 + coeff * ∑ j ∈ freeSet fixed, qs j ^ 2 / d j := by
  unfold ratio mass
  rw [sum_unmasked]
  congr 2
  apply Finset.sum_congr rfl
  intro j hj
  rw [h.eq_of_solves hl hqs j hj, sq]

end IsReduced

def ones : Fin n → Fin n → ℝ :=
  fun i j => if j ≤ i then 1 else 0

theorem isUnitLower_ones : IsUnitLower (ones : Fin n → Fin n → ℝ) where
  diag := fun _ => if_pos le_rfl
  above := fun _ _ hij => if_neg hij.not_ge

/-- An increase always succeeds, whatever the floor is. -/
theorem update_increases (hl : IsUnitLower l) (hd : ∀ i : Fin n, fixed[i] = false → 0 < d i)
    (v : Fin n → ℝ) (hcoeff : 0 < coeff) (zero : Extended) :
    ∃ l' d', (ofReals l d).update (BoxDescent.ofReals v) (.finite coeff) fixed zero =
        .ok (ofReals l' d') ∧
      Updated l d v coeff fixed l' d' ∧ ∀ j : Fin n, fixed[j] = false → d j ≤ d' j := by
  obtain ⟨l', d', hincrease, hup⟩ := increase_ofReals fixed hl hd v hcoeff
  refine ⟨l', d', ?_, hup, ?_⟩
  . rw [update_of_pos hcoeff, hincrease]
  . intro j hj
    exact hup.le_diag hl hd hcoeff.le (mem_freeSet.mpr hj)

theorem update_increases_ones : ∃ l' d', (ofReals ones fun _ => 1).update
      (BoxDescent.ofReals fun _ => 1) (.finite 2) #v[false, true, false] 0 = .ok (ofReals l' d') ∧
    Updated ones (fun _ => 1) (fun _ => 1) 2 #v[false, true, false] l' d' ∧
    ∀ j : Fin 3, (#v[false, true, false] : Vector Bool 3)[j] = false → 1 ≤ d' j :=
  update_increases isUnitLower_ones (fun _ _ => one_pos) (fun _ => 1) two_pos 0

/-- A decrease without a floor succeeds if the new matrix is positive definite. -/
theorem update_decreases (hl : IsUnitLower l) (hd : ∀ i : Fin n, fixed[i] = false → 0 < d i)
    (hcoeff : coeff < 0)
    (hps : ∀ i : Fin n, fixed[i] = false → ∑ j ∈ freeSet fixed, l i j * ps j = v i)
    (hpositive : 0 < 1 + coeff * ∑ j ∈ freeSet fixed, ps j ^ 2 / d j) :
    ∃ l' d', (ofReals l d).update (BoxDescent.ofReals v) (.finite coeff) fixed 0 =
        .ok (ofReals l' d') ∧ Updated l d v coeff fixed l' d' := by
  obtain ⟨qs, hsolve, hqs⟩ := exists_isReduced fixed hl v
  rw [← hqs.ratio_eq hl hps] at hpositive
  obtain ⟨l', d', hdecrease, hdown⟩ := decrease_exact hl hd hqs hpositive hsolve
  refine ⟨l', d', ?_, hdown⟩
  rw [update_of_neg hcoeff]
  exact hdecrease

theorem update_decreases_ones : ∃ l' d', (ofReals ones fun _ => 1).update
      (BoxDescent.ofReals fun _ => 1) (.finite (-(1 / 2))) #v[false, true, false] 0 =
        .ok (ofReals l' d') ∧
    Updated ones (fun _ => 1) (fun _ => 1) (-(1 / 2)) #v[false, true, false] l' d' := by
  have hfree : freeSet (#v[false, true, false] : Vector Bool 3) = {0, 2} := by
    decide
  have hps : ∀ i : Fin 3, (#v[false, true, false] : Vector Bool 3)[i] = false →
      ∑ j ∈ freeSet (#v[false, true, false] : Vector Bool 3),
        (ones i j : ℝ) * (if j = 0 then 1 else 0) = 1 := by
    intro i _
    rw [hfree, Finset.sum_pair (by decide), if_pos rfl, if_neg (by decide), mul_one, mul_zero, add_zero]
    exact if_pos (Fin.zero_le i)
  apply update_decreases isUnitLower_ones (fun _ _ => one_pos) (by norm_num) hps
  rw [hfree, Finset.sum_pair (by decide), if_pos rfl, if_neg (by decide)]
  norm_num

/-- A decrease with a floor always succeeds. The part of each diagonal entry that the floor names is kept,
except by the last entry of all, which may become zero. -/
theorem update_floored (hl : IsUnitLower l) (hd : ∀ i : Fin n, fixed[i] = false → 0 < d i)
    (v : Fin n → ℝ) (hcoeff : coeff < 0) {zero : ℝ} (hzero : 0 < zero) :
    ∃ l' d', (ofReals l d).update (BoxDescent.ofReals v) (.finite coeff) fixed (.finite zero) =
        .ok (ofReals l' d') ∧
      IsUnitLower l' ∧
      ∀ j : Fin n, fixed[j] = false →
        0 ≤ d' j ∧ (j.val < n - 1 → 0 < zero * d j ∧ zero * d j ≤ d' j) := by
  obtain ⟨ps, hsolve, _⟩ := exists_isReduced fixed hl v
  obtain ⟨l', d', hdecrease, hwritten, hdiag⟩ := decrease_floored coeff hzero hd hsolve
  refine ⟨l', d', ?_, hwritten.isUnitLower, ?_⟩
  . rw [update_of_neg hcoeff]
    exact hdecrease
  . intro j hj
    obtain ⟨hnonneg, hfloor, _⟩ := hdiag j hj
    refine ⟨hnonneg, ?_⟩
    intro hlt
    have hlast : Decrease.isLast j = false := decide_eq_false (by omega)
    exact ⟨mul_pos hzero (hd j hj), hfloor hlast⟩

theorem update_floored_ones : ∃ l' d', (ofReals ones fun _ => 1).update
      (BoxDescent.ofReals fun _ => 1) (.finite (-2)) #v[false, true, false] (.finite (1 / 2)) =
        .ok (ofReals l' d') ∧
    IsUnitLower l' ∧ 1 / 2 ≤ d' 0 ∧ 0 ≤ d' 2 := by
  have hpositive : ∀ i : Fin 3, (#v[false, true, false] : Vector Bool 3)[i] = false → (0 : ℝ) < 1 :=
    fun _ _ => one_pos
  obtain ⟨l', d', hupdate, hl', hdiag⟩ := update_floored isUnitLower_ones hpositive (fun _ => 1)
    (by norm_num : (-2 : ℝ) < 0) one_half_pos
  have hfirst := ((hdiag 0 rfl).2 (by decide)).2
  rw [mul_one] at hfirst
  exact ⟨l', d', hupdate, hl', hfirst, (hdiag 2 rfl).1⟩

end Factor

end BoxDescent

import BoxDescent.Proofs.Exact.Update

/-!
This module contains how a decrease takes back an increase: the factors of a positive definite matrix are
determined by its entries (`IsUnitLower.unique`), and so both updates together only take the fixed variables
out (`update_reverts`).
-/

namespace BoxDescent

open Extended

namespace Factor

variable {n : Nat} {l l' : Fin n → Fin n → ℝ} {d d' v ps : Fin n → ℝ} {coeff : ℝ}
  {fixed : Vector Bool n} {s : Finset (Fin n)}

namespace IsUnitLower

theorem product_eq_add (hl : IsUnitLower l) (i : Fin n) {j : Fin n} (hj : j ∈ s) :
    product l d s i j = l i j * d j + ∑ k ∈ s with k < j, l j k * (l i k * d k) := by
  rw [← hl.sum_row (fun k => l i k * d k) hj]
  unfold product
  apply Finset.sum_congr rfl
  intro k _
  ring

theorem unique (hl : IsUnitLower l) (hl' : IsUnitLower l') (hd : ∀ j ∈ s, d j ≠ 0)
    (h : ∀ i ∈ s, ∀ j ∈ s, product l d s i j = product l' d' s i j) :
    ∀ j ∈ s, d j = d' j ∧ ∀ i ∈ s, l i j = l' i j := by
  intro j
  -- The columns before `j` agree, and so does what they contribute to column `j` of the matrix.
  induction j using WellFoundedLT.induction with
  | ind j ih =>
    intro hj
    have hcolumn : ∀ i ∈ s, l i j * d j = l' i j * d' j := by
      intro i hi
      have hbefore : ∑ k ∈ s with k < j, l j k * (l i k * d k) =
          ∑ k ∈ s with k < j, l' j k * (l' i k * d' k) := by
        apply Finset.sum_congr rfl
        intro k hk
        rw [Finset.mem_filter] at hk
        obtain ⟨hdiag, hrow⟩ := ih k hk.2 hk.1
        rw [hdiag, hrow j hj, hrow i hi]
      have hij := h i hi j hj
      rw [hl.product_eq_add i hj, hl'.product_eq_add i hj, hbefore] at hij
      exact add_right_cancel hij
    have hdiag : d j = d' j := by
      have hjj := hcolumn j hj
      rw [hl.diag, hl'.diag, one_mul, one_mul] at hjj
      exact hjj
    refine ⟨hdiag, ?_⟩
    intro i hi
    have hij := hcolumn i hi
    rw [← hdiag] at hij
    exact mul_right_cancel₀ (hd j hj) hij

end IsUnitLower

theorem Updated.ratio_neg_pos (h : Updated l d v coeff fixed l' d') (hl : IsUnitLower l)
    (hd : ∀ i : Fin n, fixed[i] = false → 0 < d i) (hps : IsReduced l' v fixed ps) :
    0 < ratio (-coeff) d' ps (unmasked fixed) := by
  obtain ⟨u, hu⟩ := exists_pullback_eq fixed h.unitLower fun j => ps j / d' j
  obtain ⟨hsolve, hmass⟩ := hps.mass_eq h.positive hu
  have hnonneg := mass_nonneg h.positive ps fun i (hi : i ∈ unmasked fixed) => mem_unmasked.mp hi
  unfold ratio
  cases hnonneg.eq_or_lt with
  | inl hzero =>
    rw [← hzero, mul_zero, add_zero]
    exact one_pos
  | inr hpos =>
    -- With `u` the solution of the new system, the old form at `u` is the mass times the ratio.
    have hne : ∃ i ∈ freeSet fixed, u i ≠ 0 := by
      rw [hmass] at hpos
      obtain ⟨i, hi, hui⟩ := Finset.exists_ne_zero_of_sum_ne_zero hpos.ne'
      exact ⟨i, hi, left_ne_zero_of_mul hui⟩
    have hform := hl.form_pos (fun i hi => hd i (mem_freeSet.mp hi)) hne
    have hnew : ∑ i ∈ freeSet fixed, u i *
        ∑ k ∈ freeSet fixed, product l' d' (freeSet fixed) i k * u k =
        mass d' ps (unmasked fixed) := by
      rw [hmass]
      apply Finset.sum_congr rfl
      intro i hi
      rw [hsolve i hi]
    have hinner : ∑ k ∈ freeSet fixed, v k * u k = mass d' ps (unmasked fixed) := by
      rw [hmass]
      apply Finset.sum_congr rfl
      intro i _
      rw [mul_comm]
    have hadd := h.sum_form u
    rw [hnew, hinner] at hadd
    have hmul : 0 < mass d' ps (unmasked fixed) * (1 + -coeff * mass d' ps (unmasked fixed)) := by
      linarith
    exact (mul_pos_iff_of_pos_left hpos).mp hmul

theorem restrict_ofReals : (ofReals l d).restrict fixed =
    ofReals (fun i j : Fin n => if fixed[i] ∨ fixed[j] then if i = j then 1 else 0 else l i j)
      fun i : Fin n => if fixed[i] then 0 else d i := by
  unfold restrict ofReals
  congr 1
  . apply square_ext
    intro i j
    rw [Square.getElem_ofFn, getElem_squareOfReals, getElem_squareOfReals, getElem_ofReals,
      getElem_ofReals]
    split
    . split
      . rfl
      . rfl
    . rfl
  . exact masked_ofReals d

theorem Updated.eq_restrict {l₀ : Fin n → Fin n → ℝ} {d₀ : Fin n → ℝ}
    (h : Updated l d v coeff fixed l' d')
    (hsame : ∀ j ∈ freeSet fixed, d' j = d₀ j ∧ ∀ i ∈ freeSet fixed, l' i j = l₀ i j) :
    ofReals l' d' = (ofReals l₀ d₀).restrict fixed := by
  rw [restrict_ofReals]
  congr 1
  . funext i j
    split
    . next hor =>
      split
      . next hij => rw [hij, h.unitLower.diag]
      . next hij => exact h.masked i j hij hor
    . next hor =>
      rw [not_or, Bool.not_eq_true, Bool.not_eq_true] at hor
      exact (hsame j (mem_freeSet.mpr hor.2)).2 i (mem_freeSet.mpr hor.1)
  . funext i
    split
    . next hi => exact h.diag i hi
    . next hi =>
      rw [Bool.not_eq_true] at hi
      exact (hsame i (mem_freeSet.mpr hi)).1

/-- A decrease by what an increase has added takes it back: on the free variables the factors are the old
ones again. -/
theorem update_reverts (hl : IsUnitLower l) (hd : ∀ i : Fin n, fixed[i] = false → 0 < d i)
    (v : Fin n → ℝ) (hcoeff : 0 < coeff) :
    ∃ g, (ofReals l d).update (BoxDescent.ofReals v) (.finite coeff) fixed 0 = .ok g ∧
      g.update (BoxDescent.ofReals v) (.finite (-coeff)) fixed 0 = .ok ((ofReals l d).restrict fixed) := by
  obtain ⟨l₁, d₁, hincrease, hup⟩ := increase_ofReals fixed hl hd v hcoeff
  obtain ⟨ps, hsolve, hps⟩ := exists_isReduced fixed hup.unitLower v
  obtain ⟨l₂, d₂, hdecrease, hdown⟩ :=
    decrease_exact hup.unitLower hup.positive hps (hup.ratio_neg_pos hl hd hps) hsolve
  have hproduct : ∀ i ∈ freeSet fixed, ∀ j ∈ freeSet fixed,
      product l₂ d₂ (freeSet fixed) i j = product l d (freeSet fixed) i j := by
    intro i hi j hj
    rw [mem_freeSet] at hi hj
    rw [hdown.product_eq i j hi hj, hup.product_eq i j hi hj]
    ring
  have hunique := hdown.unitLower.unique hl
    (fun j hj => (hdown.positive j (mem_freeSet.mp hj)).ne') hproduct
  refine ⟨ofReals l₁ d₁, ?_, ?_⟩
  . rw [update_of_pos hcoeff, hincrease]
  . rw [update_of_neg (neg_neg_of_pos hcoeff), zero_eq, hdecrease, hdown.eq_restrict hunique]

theorem update_reverts_ones :
    ∃ g, (ofReals ones fun _ => 1).update (BoxDescent.ofReals fun _ => 1) (.finite 2)
        #v[false, true, false] 0 = .ok g ∧
      g.update (BoxDescent.ofReals fun _ => 1) (.finite (-2)) #v[false, true, false] 0 =
        .ok ((ofReals ones fun _ => 1).restrict #v[false, true, false]) :=
  update_reverts isUnitLower_ones (fun _ _ => one_pos) (fun _ => 1) two_pos

end Factor

end BoxDescent

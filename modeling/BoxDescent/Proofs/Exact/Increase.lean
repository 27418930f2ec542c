import BoxDescent.Proofs.Exact.Column

/-!
This module contains the increase of the factors in exact arithmetic: it adds a positive multiple of
`v * vᵀ` to the matrix, and the diagonal stays positive (`increase_ofReals`).
-/

namespace BoxDescent

open Extended

namespace Factor

variable {n : Nat} {l : Fin n → Fin n → ℝ} {d v ps : Fin n → ℝ} {coeff : ℝ} {fixed : Vector Bool n}

structure Increase.Sweeps (l : Fin n → Fin n → ℝ) (d v ps : Fin n → ℝ) (coeff : ℝ)
    (fixed : Vector Bool n) (done : List (Fin n)) (s : Increase.State Extended n) : Prop where
  rest : s.rest = .finite (coeff / ratio coeff d ps done)
  reduced : ∀ r : Fin n, fixed[r] = false → r ∉ done →
    s.reduced[r] = .finite (residual l v ps done r)
  out : Swept l d v ps coeff fixed done s.out

theorem Increase.Sweeps.step {before after : List (Fin n)} {j : Fin n}
    {s : Increase.State Extended n} (hl : IsUnitLower l)
    (hd : ∀ i : Fin n, fixed[i] = false → 0 < d i) (hps : IsReduced l v fixed ps)
    (hend : 0 < ratio coeff d ps (unmasked fixed))
    (hsplit : unmasked fixed = before ++ j :: after)
    (h : Increase.Sweeps l d v ps coeff fixed before s) :
    Increase.Sweeps l d v ps coeff fixed (before ++ [j]) (Increase.step (ofReals l d) fixed s j) := by
  have hj := free_of_split hsplit
  have hdj := hd j hj
  have hbefore := ratio_pos_of_append hd hend before (j :: after) hsplit
  have hafter : 0 < ratio coeff d ps (before ++ [j]) :=
    ratio_pos_of_append hd hend _ after (by rw [hsplit]; simp)
  have hp : s.reduced[j] = .finite (ps j) := by
    rw [h.reduced j hj (not_mem_before hsplit), hps.residual_eq hl hsplit]
  have hdiag : (ofReals l d).diag[j] = .finite (d j) := getElem_ofReals d j
  -- The new diagonal entry is the old one times the growth of the determinant.
  have hconcat := ratio_concat coeff d ps j before
  have hnew : (ofReals l d).diag[j] + s.rest * s.reduced[j] * s.reduced[j] =
      .finite (d j * ratio coeff d ps (before ++ [j]) / ratio coeff d ps before) := by
    rw [hdiag, h.rest, hp, finite_mul, finite_mul, finite_add, hconcat]
    congr 1
    field_simp
  have hne : d j * ratio coeff d ps (before ++ [j]) / ratio coeff d ps before ≠ 0 :=
    (div_pos (mul_pos hdj hafter) hbefore).ne'
  have hbeta : s.reduced[j] * s.rest /
      ((ofReals l d).diag[j] + s.rest * s.reduced[j] * s.reduced[j]) =
      .finite (coeff * ps j / (ratio coeff d ps (before ++ [j]) * d j)) := by
    rw [hnew, h.rest, hp, finite_mul, finite_div hne]
    congr 1
    field_simp
  have hreduced : ∀ r : Fin n, fixed[r] = false → r ∉ before ++ [j] →
      ((ofReals l d).reduce fixed s.reduced j s.reduced[j])[r] =
        .finite (residual l v ps (before ++ [j]) r) := by
    intro r hr hdone
    rw [hp]
    exact reduce_ofReals hsplit h.reduced hr hdone
  unfold Increase.step
  constructor
  . dsimp only
    rw [hnew, h.rest, hdiag, finite_div hne, finite_mul]
    congr 1
    field_simp
  . exact hreduced
  . dsimp only
    rw [hnew] at hbeta ⊢
    apply h.out.column hl hd hps hend hsplit
    intro r hjr hr
    exact ⟨hbeta, hreduced r hr (not_mem_of_lt hsplit hjr)⟩

theorem increase_ofReals (fixed : Vector Bool n) (hl : IsUnitLower l)
    (hd : ∀ i : Fin n, fixed[i] = false → 0 < d i) (v : Fin n → ℝ) (hcoeff : 0 < coeff) :
    ∃ l' d', (ofReals l d).increase (BoxDescent.ofReals v) (.finite coeff) fixed = ofReals l' d' ∧
      Updated l d v coeff fixed l' d' := by
  obtain ⟨ps, _, hps⟩ := exists_isReduced fixed hl v
  have hend : 0 < ratio coeff d ps (unmasked fixed) := by
    have hmass := mass_nonneg hd ps fun i (hi : i ∈ unmasked fixed) => mem_unmasked.mp hi
    unfold ratio
    have := mul_nonneg hcoeff.le hmass
    linarith
  have hsweep := foldl_invariant (f := Increase.step (ofReals l d) fixed)
    (Increase.Sweeps l d v ps coeff fixed) (unmasked fixed) []
    { rest := .finite coeff
      reduced := Vector.ofFn fun i => if fixed[i] then 0 else (BoxDescent.ofReals v)[i]
      out := blank fixed }
    (by
      constructor
      . dsimp only
        unfold ratio mass
        rw [List.map_nil, List.sum_nil, mul_zero, add_zero, div_one]
      . intro r hr _
        exact reduced_start hr
      . exact swept_blank)
    fun before j after s hsplit hs => hs.step hl hd hps hend hsplit
  rw [List.nil_append] at hsweep
  exact hsweep.out.updated hps

end Factor

end BoxDescent

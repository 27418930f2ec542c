import BoxDescent.Proofs.Exact.Update
import BoxDescent.Proofs.Input.Linear

/-!
This module contains what a reset does to the matrix that the factors stand for. The variables that are reset
are decoupled from all others, and what their columns of `L` had contributed is taken off the entries of the
others (`reset_decouples`).
-/

namespace BoxDescent

open Input

variable {n : Nat} {l : Fin n → Fin n → ℝ} {d : Fin n → ℝ}

namespace Factor

variable {s : Finset (Fin n)} {v : ℝ}

theorem product_comm (s : Finset (Fin n)) (i k : Fin n) : product l d s i k = product l d s k i := by
  unfold product
  apply Finset.sum_congr rfl
  intro j _
  ring

theorem product_of_mem {i : Fin n} (hi : i ∈ s) (k : Fin n) :
    product (withoutRows l s) (withEntries d s v) Finset.univ i k = if i = k then v else 0 := by
  have hrow : ∀ j, withoutRows l s i j = if i = j then 1 else 0 := fun j => if_pos (Or.inl hi)
  have hcolumn : withoutRows l s k i = if k = i then 1 else 0 := if_pos (Or.inr hi)
  have hentry : withEntries d s v i = v := if_pos hi
  unfold product
  simp only [hrow, ite_mul, one_mul, zero_mul, Finset.sum_ite_eq, Finset.mem_univ, if_true]
  rw [hcolumn, hentry, mul_ite, mul_one, mul_zero]
  simp only [eq_comm]

theorem product_of_not_mem {k m : Fin n} (hk : k ∉ s) (hm : m ∉ s) :
    product (withoutRows l s) (withEntries d s v) Finset.univ k m =
      product l d Finset.univ k m - ∑ j ∈ s, l k j * d j * l m j := by
  have hinside : ∑ j ∈ s, withoutRows l s k j * withEntries d s v j * withoutRows l s m j = 0 := by
    apply Finset.sum_eq_zero
    intro j hj
    have hkj : withoutRows l s k j = 0 := by
      unfold withoutRows
      rw [if_pos (Or.inr hj), if_neg (ne_of_mem_of_not_mem hj hk).symm]
    rw [hkj, zero_mul, zero_mul]
  have houtside : ∀ j ∈ sᶜ,
      withoutRows l s k j * withEntries d s v j * withoutRows l s m j = l k j * d j * l m j := by
    intro j hj
    rw [Finset.mem_compl] at hj
    unfold withoutRows withEntries
    rw [if_neg (not_or.mpr ⟨hk, hj⟩), if_neg (not_or.mpr ⟨hm, hj⟩), if_neg hj]
  unfold product
  rw [← Finset.sum_compl_add_sum s, hinside, add_zero, Finset.sum_congr rfl houtside,
    ← Finset.sum_compl_add_sum s fun j => l k j * d j * l m j, add_sub_cancel_right]

end Factor

/-- A reset at positions in range decouples the variables that they mean, with `c` in their place. It does
not matter in which order and how often a variable is named, and a second reset does nothing. -/
theorem reset_decouples (hl : Factor.IsUnitLower l) (d : Fin n → ℝ) (c : ℝ) {positions : List Int}
    (hpositions : ∀ p ∈ positions, -(n : Int) ≤ p ∧ p < n) :
    ∃ l' d', (Factors.ofFactor (Factor.ofReals l d)).reset positions (.finite c) =
        (.ofFactor (Factor.ofReals l' d'), .ok ()) ∧
      Factor.IsUnitLower l' ∧
      (∀ i ∈ meant n positions, ∀ k,
        Factor.product l' d' Finset.univ i k = (if i = k then c else 0) ∧
          Factor.product l' d' Finset.univ k i = if i = k then c else 0) ∧
      (∀ k ∉ meant n positions, ∀ m ∉ meant n positions,
        Factor.product l' d' Finset.univ k m =
          Factor.product l d Finset.univ k m - ∑ j ∈ meant n positions, l k j * d j * l m j) ∧
      (∀ others : List Int, (∀ p ∈ others, -(n : Int) ≤ p ∧ p < n) → meant n others = meant n positions →
        (Factors.ofFactor (Factor.ofReals l d)).reset others (.finite c) =
          (.ofFactor (Factor.ofReals l' d'), .ok ())) ∧
      (Factors.ofFactor (Factor.ofReals l' d')).reset positions (.finite c) =
        (.ofFactor (Factor.ofReals l' d'), .ok ()) := by
  have hreset := Factor.resetAll_ofReals (l := l) (d := d) (positions.filterMap (place? n)) c
  refine ⟨Factor.withoutRows l (meant n positions), Factor.withEntries d (meant n positions) c, ?_,
    hl.withoutRows _, ?_, ?_, ?_, ?_⟩
  . rw [Factors.reset_ofFactor _ hpositions, hreset, meant]
  . intro i hi k
    rw [Factor.product_comm Finset.univ k i, Factor.product_of_mem hi]
    exact ⟨rfl, rfl⟩
  . exact fun k hk m hm => Factor.product_of_not_mem hk hm
  . intro others hothers hmeant
    have hsame : ∀ i, i ∈ others.filterMap (place? n) ↔ i ∈ positions.filterMap (place? n) := by
      intro i
      rw [← List.mem_toFinset, ← List.mem_toFinset]
      show i ∈ meant n others ↔ i ∈ meant n positions
      rw [hmeant]
    rw [Factors.reset_ofFactor _ hothers, Factor.resetAll_eq_of_mem_iff hsame, hreset, meant]
  . rw [Factors.reset_ofFactor _ hpositions, meant, ← hreset, Factor.resetAll_resetAll]

theorem reset_decouples_ones : ∃ (l' : Fin 3 → Fin 3 → ℝ) (d' : Fin 3 → ℝ),
    (Factors.ofFactor (Factor.ofReals (Factor.ones : Fin 3 → Fin 3 → ℝ) fun _ => 1)).reset [-1, 0, 2]
        (.finite 4) = (.ofFactor (Factor.ofReals l' d'), .ok ()) ∧
      Factor.product l' d' Finset.univ 0 0 = 4 ∧ Factor.product l' d' Finset.univ 2 1 = 0 ∧
      Factor.product l' d' Finset.univ 1 1 = 1 := by
  have hmeant : meant 3 [-1, 0, 2] = {0, 2} := by
    decide
  obtain ⟨l', d', hreset, _, hmem, hrest, _, _⟩ :=
    reset_decouples Factor.isUnitLower_ones (fun _ => 1) 4
      (by decide : ∀ p ∈ ([-1, 0, 2] : List Int), -((3 : Nat) : Int) ≤ p ∧ p < (3 : Nat))
  rw [hmeant] at hmem hrest
  refine ⟨l', d', hreset, (hmem 0 (by decide) 0).1, (hmem 2 (by decide) 1).1, ?_⟩
  rw [hrest 1 (by decide) 1 (by decide)]
  unfold Factor.product Factor.ones
  rw [Fin.sum_univ_three, Finset.sum_pair (by decide)]
  norm_num

end BoxDescent

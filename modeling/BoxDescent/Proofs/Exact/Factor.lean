import BoxDescent.Factor.Basic
import BoxDescent.Proofs.Exact.Triangle
import BoxDescent.Proofs.Factor.Reset

/-!
This module contains the factors in exact arithmetic: the matrix that they stand for over the free
variables, its quadratic form, and the direction, which solves the equation of Newton's method with it.
-/

namespace BoxDescent

open Extended

variable {n : Nat}

namespace Factor

def ofReals (l : Fin n → Fin n → ℝ) (d : Fin n → ℝ) : Factor Extended n :=
  { lower := Square.ofReals l, diag := BoxDescent.ofReals d }

structure IsUnitLower (l : Fin n → Fin n → ℝ) : Prop where
  diag : ∀ i, l i i = 1
  above : ∀ i j, i < j → l i j = 0

def product (l : Fin n → Fin n → ℝ) (d : Fin n → ℝ) (s : Finset (Fin n)) (i k : Fin n) : ℝ :=
  ∑ j ∈ s, l i j * d j * l k j

def pullback (l : Fin n → Fin n → ℝ) (s : Finset (Fin n)) (u : Fin n → ℝ) (j : Fin n) : ℝ :=
  ∑ i ∈ s, l i j * u i

variable {l : Fin n → Fin n → ℝ} {d : Fin n → ℝ} {s : Finset (Fin n)} {u w : Fin n → ℝ}

theorem sum_product (i : Fin n) :
    ∑ k ∈ s, product l d s i k * w k = ∑ j ∈ s, l i j * d j * pullback l s w j := by
  unfold product pullback
  simp only [Finset.sum_mul, Finset.mul_sum]
  rw [Finset.sum_comm]
  apply Finset.sum_congr rfl
  intro j _
  apply Finset.sum_congr rfl
  intro k _
  ring

theorem sum_form : ∑ i ∈ s, u i * ∑ k ∈ s, product l d s i k * w k =
    ∑ j ∈ s, d j * pullback l s u j * pullback l s w j := by
  simp only [sum_product, Finset.mul_sum]
  rw [Finset.sum_comm]
  apply Finset.sum_congr rfl
  intro j _
  have hcolumn : ∑ i ∈ s, u i * (l i j * d j * pullback l s w j) =
      (∑ i ∈ s, l i j * u i) * (d j * pullback l s w j) := by
    rw [Finset.sum_mul]
    apply Finset.sum_congr rfl
    intro i _
    ring
  rw [hcolumn]
  unfold pullback
  ring

theorem sum_form_comm : ∑ i ∈ s, u i * ∑ k ∈ s, product l d s i k * w k =
    ∑ i ∈ s, w i * ∑ k ∈ s, product l d s i k * u k := by
  rw [sum_form, sum_form]
  apply Finset.sum_congr rfl
  intro j _
  ring

namespace IsUnitLower

theorem pullback_eq (hl : IsUnitLower l) {j : Fin n} (hj : j ∈ s) :
    pullback l s u j = u j + ∑ i ∈ s with j < i, l i j * u i := by
  unfold pullback
  rw [← Finset.add_sum_erase s _ hj, hl.diag, one_mul, add_right_inj]
  symm
  apply Finset.sum_subset
  . intro i hi
    rw [Finset.mem_filter] at hi
    rw [Finset.mem_erase]
    exact ⟨hi.2.ne', hi.1⟩
  . intro i hi hnot
    rw [Finset.mem_erase] at hi
    rw [Finset.mem_filter, not_and] at hnot
    rw [hl.above i j (lt_of_le_of_ne (not_lt.mp (hnot hi.2)) hi.1), zero_mul]

theorem pullback_of_below (hl : IsUnitLower l) {j : Fin n} (hj : j ∈ s)
    (h : ∀ i ∈ s, j < i → u i = 0) : pullback l s u j = u j := by
  rw [hl.pullback_eq hj, add_eq_left]
  apply Finset.sum_eq_zero
  intro i hi
  rw [Finset.mem_filter] at hi
  rw [h i hi.1 hi.2, mul_zero]

theorem eq_zero_of_pullback (hl : IsUnitLower l) (h : ∀ j ∈ s, pullback l s u j = 0) :
    ∀ j ∈ s, u j = 0 := by
  intro j
  -- From the last entry down, each equation determines one more entry.
  induction j using WellFoundedGT.induction with
  | ind j ih =>
    intro hj
    rw [← hl.pullback_of_below hj fun i hi hji => ih i hji hi]
    exact h j hj

theorem form_nonneg (hd : ∀ j ∈ s, 0 < d j) :
    0 ≤ ∑ i ∈ s, u i * ∑ k ∈ s, product l d s i k * u k := by
  rw [sum_form]
  apply Finset.sum_nonneg
  intro j hj
  rw [mul_assoc]
  exact mul_nonneg (hd j hj).le (mul_self_nonneg _)

theorem form_pos (hl : IsUnitLower l) (hd : ∀ j ∈ s, 0 < d j) (hu : ∃ i ∈ s, u i ≠ 0) :
    0 < ∑ i ∈ s, u i * ∑ k ∈ s, product l d s i k * u k := by
  apply lt_of_le_of_ne (form_nonneg hd)
  intro hzero
  rw [sum_form] at hzero
  have hterms := (Finset.sum_eq_zero_iff_of_nonneg fun j hj => by
    rw [mul_assoc]
    exact mul_nonneg (hd j hj).le (mul_self_nonneg (pullback l s u j))).mp hzero.symm
  obtain ⟨i, hi, hne⟩ := hu
  apply hne
  apply hl.eq_zero_of_pullback _ i hi
  intro j hj
  have hj' := hterms j hj
  rw [mul_assoc, mul_eq_zero, mul_self_eq_zero] at hj'
  exact hj'.resolve_left (hd j hj).ne'

end IsUnitLower

theorem identity_ofReals : (identity : Factor Extended n) =
    ofReals (fun i j => if i = j then 1 else 0) fun _ => 1 := by
  unfold identity ofReals Square.identity
  congr 1
  . apply square_ext
    intro i j
    rw [Square.getElem_ofFn, getElem_squareOfReals, getElem_ofReals]
    split
    . rfl
    . rfl
  . rw [eq_ofReals_iff]
    intro i
    rw [getElem_replicate]
    rfl

theorem isUnitLower_identity : IsUnitLower fun i j : Fin n => if i = j then 1 else 0 where
  diag := fun _ => if_pos rfl
  above := fun _ _ hij => if_neg hij.ne

/-- The vector `p` is zero on the fixed variables and solves `L * D * Lᵀ * p = -grad` on the free rows and
columns. -/
structure IsDirection (l : Fin n → Fin n → ℝ) (d grad : Fin n → ℝ) (fixed : Vector Bool n)
    (p : Fin n → ℝ) : Prop where
  onFixed : ∀ i : Fin n, fixed[i] = true → p i = 0
  onFree : ∀ i : Fin n, fixed[i] = false →
    ∑ k ∈ freeSet fixed, product l d (freeSet fixed) i k * p k = -grad i

namespace IsDirection

variable {grad p : Fin n → ℝ} {fixed : Vector Bool n}

theorem slope_eq (h : IsDirection l d grad fixed p) : ∑ i ∈ freeSet fixed, grad i * p i =
    -∑ i ∈ freeSet fixed, p i * ∑ k ∈ freeSet fixed, product l d (freeSet fixed) i k * p k := by
  rw [← Finset.sum_neg_distrib]
  apply Finset.sum_congr rfl
  intro i hi
  rw [h.onFree i (mem_freeSet.mp hi)]
  ring

theorem slope_nonpos (h : IsDirection l d grad fixed p)
    (hd : ∀ i : Fin n, fixed[i] = false → 0 < d i) : ∑ i ∈ freeSet fixed, grad i * p i ≤ 0 := by
  rw [h.slope_eq, neg_nonpos]
  exact IsUnitLower.form_nonneg fun i hi => hd i (mem_freeSet.mp hi)

theorem slope_neg (h : IsDirection l d grad fixed p) (hl : IsUnitLower l)
    (hd : ∀ i : Fin n, fixed[i] = false → 0 < d i) (hgrad : ∃ i ∈ freeSet fixed, grad i ≠ 0) :
    ∑ i ∈ freeSet fixed, grad i * p i < 0 := by
  rw [h.slope_eq, neg_lt_zero]
  apply hl.form_pos fun i hi => hd i (mem_freeSet.mp hi)
  apply Classical.byContradiction
  intro hnone
  obtain ⟨i, hi, hne⟩ := hgrad
  apply hne
  rw [← neg_eq_zero, ← h.onFree i (mem_freeSet.mp hi)]
  apply Finset.sum_eq_zero
  intro k hk
  have hpk : p k = 0 := by
    apply Classical.byContradiction
    intro hpk
    exact hnone ⟨k, hk, hpk⟩
  rw [hpk, mul_zero]

end IsDirection

section Direction

variable {grad : Fin n → ℝ} {fixed : Vector Bool n}

theorem scaled_ofReals : (ofReals l d).scaled fixed =
    Square.ofReals fun i j => if fixed[j] then 0 else l i j * d j := by
  apply square_ext
  intro i j
  unfold scaled ofReals
  rw [Square.getElem_ofFn, getElem_squareOfReals, getElem_squareOfReals, getElem_ofReals,
    getElem_ofReals, getElem_ofReals]
  split
  . rfl
  . rw [finite_mul]

theorem transpose_ofReals :
    Square.transpose (Square.ofReals l) = Square.ofReals fun i j => l j i := by
  apply square_ext
  intro i j
  unfold Square.transpose
  rw [Square.getElem_ofFn, getElem_squareOfReals, getElem_squareOfReals, getElem_ofReals,
    getElem_ofReals]

theorem masked_ofReals (v : Fin n → ℝ) :
    (Vector.ofFn fun i : Fin n => if fixed[i] then (0 : Extended) else (BoxDescent.ofReals v)[i]) =
      BoxDescent.ofReals fun i => if fixed[i] then 0 else v i := by
  rw [eq_ofReals_iff]
  intro i
  rw [getElem_vectorOfFn]
  split
  . rfl
  . rw [getElem_ofReals]

theorem rhs_ofReals :
    (Vector.ofFn fun i : Fin n => if fixed[i] then (0 : Extended)
      else -(BoxDescent.ofReals grad)[i]) =
      BoxDescent.ofReals fun i => if fixed[i] then 0 else -grad i := by
  rw [eq_ofReals_iff]
  intro i
  rw [getElem_vectorOfFn]
  split
  . rfl
  . rw [getElem_ofReals, finite_neg]

theorem firstNonFinite?_eq_none_iff {v : Vector Extended n} :
    firstNonFinite? v = none ↔ ∃ w, v = BoxDescent.ofReals w := by
  unfold firstNonFinite?
  rw [List.find?_eq_none, exists_ofReals_iff]
  simp

theorem firstNonFinite?_ofReals (v : Fin n → ℝ) : firstNonFinite? (BoxDescent.ofReals v) = none :=
  firstNonFinite?_eq_none_iff.mpr ⟨v, rfl⟩

theorem solves_of_direction {f : Factor Extended n} {grad p : Vector Extended n} {fixed : Vector Bool n}
    (h : f.direction grad fixed = .ok p) : ∃ y q,
      Triangle.lower.solve (f.scaled fixed)
        (Vector.ofFn fun i : Fin n => if fixed[i] then 0 else -grad[i]) fixed = BoxDescent.ofReals y ∧
      Triangle.upper.solve f.lower.transpose (BoxDescent.ofReals y) fixed = BoxDescent.ofReals q ∧
      p = BoxDescent.ofReals q := by
  unfold direction at h
  dsimp only at h
  split at h
  . cases h
  . next hy =>
    obtain ⟨y, hy⟩ := firstNonFinite?_eq_none_iff.mp hy
    rw [hy] at h
    split at h
    . cases h
    . next hp =>
      cases h
      obtain ⟨q, hq⟩ := firstNonFinite?_eq_none_iff.mp hp
      exact ⟨y, q, hy, hq, hq⟩

theorem finite_of_direction {f : Factor Extended n} {grad p : Vector Extended n} {fixed : Vector Bool n}
    (h : f.direction grad fixed = .ok p) : (∃ q, p = BoxDescent.ofReals q) ∧ FiniteOn fixed grad := by
  obtain ⟨y, q, hy, _, hq⟩ := solves_of_direction h
  refine ⟨⟨q, hq⟩, ?_⟩
  intro i hi
  -- The unknown is finite, and so is the numerator that it comes from.
  have hunknown := Triangle.getElem_solve (t := .lower) (f.scaled fixed)
    (Vector.ofFn fun i : Fin n => if fixed[i] then 0 else -grad[i]) fixed i
  rw [hy, getElem_ofReals, if_neg (Bool.eq_false_iff.mp hi)] at hunknown
  unfold Triangle.unknown at hunknown
  obtain ⟨_, hnumerator⟩ := eq_finite_of_div hunknown.symm
  obtain ⟨_, hrhs⟩ := eq_finite_of_sub hnumerator
  rw [getElem_vectorOfFn, if_neg (Bool.eq_false_iff.mp hi)] at hrhs
  exact eq_finite_of_neg hrhs

theorem isTriangular_scaled (d : Fin n → ℝ) (fixed : Vector Bool n) (hl : IsUnitLower l) :
    Triangle.lower.IsTriangular fun i (j : Fin n) => if fixed[j] then 0 else l i j * d j := by
  intro i j hne hj
  rw [Triangle.mem_beside] at hj
  dsimp only
  split
  . rfl
  . rw [hl.above i j (lt_of_le_of_ne (not_lt.mp hj) hne.symm), zero_mul]

theorem isTriangular_transpose (hl : IsUnitLower l) :
    Triangle.upper.IsTriangular fun i j => l j i := by
  intro i j hne hj
  rw [Triangle.mem_beside] at hj
  exact hl.above j i (lt_of_le_of_ne (not_lt.mp hj) hne)

theorem sum_eq_freeSet {f : Fin n → ℝ} (h : ∀ i : Fin n, fixed[i] = true → f i = 0) :
    ∑ i, f i = ∑ i ∈ freeSet fixed, f i := by
  symm
  apply Finset.sum_subset (Finset.subset_univ _)
  intro i _ hi
  rw [mem_freeSet, Bool.not_eq_false] at hi
  exact h i hi

theorem direction_ofReals (hl : IsUnitLower l) (hd : ∀ i : Fin n, fixed[i] = false → 0 < d i)
    (grad : Fin n → ℝ) : ∃ p, (ofReals l d).direction (BoxDescent.ofReals grad) fixed =
      .ok (BoxDescent.ofReals p) ∧ IsDirection l d grad fixed p := by
  obtain ⟨y, hy, hyfixed, hyfree⟩ := Triangle.solve_ofReals fixed
    (isTriangular_scaled d fixed hl)
    (by
      intro j hj
      rw [if_neg (Bool.eq_false_iff.mp hj), hl.diag, one_mul]
      exact (hd j hj).ne')
    fun i => if fixed[i] then 0 else -grad i
  obtain ⟨p, hp, hpfixed, hpfree⟩ := Triangle.solve_ofReals fixed
    (isTriangular_transpose hl)
    (by
      intro j _
      rw [hl.diag]
      exact one_ne_zero)
    y
  refine ⟨p, ?_, hpfixed, ?_⟩
  . unfold direction
    dsimp only
    rw [rhs_ofReals, scaled_ofReals, hy, firstNonFinite?_ofReals]
    dsimp only
    have hlower : (ofReals l d).lower = Square.ofReals l := rfl
    rw [hlower, transpose_ofReals, hp, firstNonFinite?_ofReals]
  . intro i hi
    -- The backward substitution undoes `Lᵀ`, and the forward one `L * D`.
    have hpull : ∀ j ∈ freeSet fixed, pullback l (freeSet fixed) p j = y j := by
      intro j hj
      rw [← hpfree j (mem_freeSet.mp hj)]
      unfold pullback
      symm
      apply sum_eq_freeSet
      intro k hk
      rw [hpfixed k hk, mul_zero]
    rw [sum_product]
    have hrow := hyfree i hi
    rw [if_neg (Bool.eq_false_iff.mp hi)] at hrow
    rw [← hrow, sum_eq_freeSet]
    . apply Finset.sum_congr rfl
      intro j hj
      rw [hpull j hj, if_neg (Bool.eq_false_iff.mp (mem_freeSet.mp hj))]
    . intro j hj
      rw [if_pos hj, zero_mul]

theorem sum_product_identity {s : Finset (Fin n)} {i : Fin n} (hi : i ∈ s) (w : Fin n → ℝ) :
    ∑ k ∈ s, product (fun i j => if i = j then 1 else 0) (fun _ => 1) s i k * w k = w i := by
  rw [sum_product]
  unfold pullback
  simp [hi]

theorem direction_identity (fixed : Vector Bool n) (grad : Fin n → ℝ) :
    identity.direction (BoxDescent.ofReals grad) fixed =
      .ok (BoxDescent.ofReals fun i => if fixed[i] then 0 else -grad i) := by
  obtain ⟨p, hp, hdirection⟩ := direction_ofReals isUnitLower_identity
    (fun (i : Fin n) (_ : fixed[i] = false) => one_pos) grad
  rw [identity_ofReals, hp]
  congr 2
  funext i
  split
  . next hi => exact hdirection.onFixed i hi
  . next hi =>
    rw [Bool.not_eq_true] at hi
    rw [← hdirection.onFree i hi, sum_product_identity (mem_freeSet.mpr hi)]

theorem firstNonFinite?_eq_some_iff {v : Vector Extended n} {j : Fin n} :
    firstNonFinite? v = some j ↔
      Scalar.isFinite v[j] = false ∧ ∀ i, i < j → Scalar.isFinite v[i] = true := by
  unfold firstNonFinite?
  rw [← Fin.find?_eq_find?_finRange, Fin.find?_eq_some_iff]
  simp only [Bool.not_eq_true', Bool.not_eq_false']

theorem direction_singular (hl : IsUnitLower l) {j : Fin n} (hfree : fixed[j] = false) (hzero : d j = 0)
    (hd : ∀ i, i < j → fixed[i] = false → d i ≠ 0) (grad : Fin n → ℝ) :
    (ofReals l d).direction (BoxDescent.ofReals grad) fixed =
      .error (.breakdown (.direction .forward j (.finite (-grad j)) 0)) := by
  have hfinite : ∀ i : Fin n, i < j → ∃ r, (Triangle.lower.solve
      (Square.ofReals fun i j => if fixed[j] then 0 else l i j * d j)
      (BoxDescent.ofReals fun i => if fixed[i] then 0 else -grad i) fixed)[i] = .finite r := by
    apply Triangle.exists_getElem_solve fixed (fun i => i < j)
    . intro i hi k hk
      rw [Triangle.mem_beside] at hk
      exact hk.trans hi
    . intro i hi hfreei
      rw [if_neg (Bool.eq_false_iff.mp hfreei), hl.diag, one_mul]
      exact hd i hi hfreei
  have hinfinite : Scalar.isFinite (Triangle.lower.solve
      (Square.ofReals fun i j => if fixed[j] then 0 else l i j * d j)
      (BoxDescent.ofReals fun i => if fixed[i] then 0 else -grad i) fixed)[j] = false := by
    have hbeside : ∀ i, ∃ r, i ∈ Triangle.lower.beside j → (Triangle.lower.solve
        (Square.ofReals fun i j => if fixed[j] then 0 else l i j * d j)
        (BoxDescent.ofReals fun i => if fixed[i] then 0 else -grad i) fixed)[i] = .finite r := by
      intro i
      by_cases hi : i < j
      . obtain ⟨r, hr⟩ := hfinite i hi
        exact ⟨r, fun _ => hr⟩
      . exact ⟨0, fun hmem => absurd (Triangle.mem_beside.mp hmem) hi⟩
    choose w hw using hbeside
    rw [Triangle.getElem_solve, if_neg (Bool.eq_false_iff.mp hfree), Triangle.unknown_ofReals hw,
      if_neg (Bool.eq_false_iff.mp hfree), hzero, mul_zero, ite_self, finite_div_zero]
    exact not_isFinite_infinity
  have hfirst : firstNonFinite? (Triangle.lower.solve
      (Square.ofReals fun i j => if fixed[j] then 0 else l i j * d j)
      (BoxDescent.ofReals fun i => if fixed[i] then 0 else -grad i) fixed) = some j := by
    rw [firstNonFinite?_eq_some_iff]
    refine ⟨hinfinite, ?_⟩
    intro i hi
    obtain ⟨r, hr⟩ := hfinite i hi
    rw [hr]
    rfl
  unfold direction
  dsimp only
  rw [rhs_ofReals, scaled_ofReals, hfirst]
  dsimp only
  rw [getElem_ofReals, if_neg (Bool.eq_false_iff.mp hfree)]
  have hdiag : (ofReals l d).diag[j] = .finite (d j) := getElem_ofReals d j
  rw [hdiag, hzero, zero_eq]

end Direction

section Reset

def withoutRow (l : Fin n → Fin n → ℝ) (i r c : Fin n) : ℝ :=
  if r = i ∨ c = i then if r = c then 1 else 0 else l r c

theorem reset_ofReals (i : Fin n) (v : ℝ) :
    (ofReals l d).reset i (.finite v) = ofReals (withoutRow l i) (Function.update d i v) := by
  unfold reset ofReals
  congr 1
  . apply square_ext
    intro r c
    unfold withoutRow
    rw [Square.getElem_ofFn, getElem_squareOfReals, getElem_squareOfReals, getElem_ofReals,
      getElem_ofReals]
    split
    . split
      . rfl
      . rfl
    . rfl
  . exact ofReals_set d i v

theorem reset_identity (i : Fin n) : (identity : Factor Extended n).reset i 1 = identity := by
  have hrow : withoutRow (fun r c : Fin n => if r = c then 1 else 0) i =
      fun r c => if r = c then 1 else 0 := by
    funext r c
    unfold withoutRow
    rw [ite_self]
  rw [identity_ofReals, one_eq, reset_ofReals, hrow, Function.update_eq_self]

theorem IsUnitLower.withoutRow (hl : IsUnitLower l) (i : Fin n) : IsUnitLower (withoutRow l i) where
  diag := by
    intro r
    unfold Factor.withoutRow
    rw [if_pos rfl, hl.diag, ite_self]
  above := by
    intro r c hrc
    unfold Factor.withoutRow
    rw [if_neg hrc.ne, hl.above r c hrc, ite_self]

def withoutRows (l : Fin n → Fin n → ℝ) (s : Finset (Fin n)) (r c : Fin n) : ℝ :=
  if r ∈ s ∨ c ∈ s then if r = c then 1 else 0 else l r c

def withEntries (d : Fin n → ℝ) (s : Finset (Fin n)) (v : ℝ) (i : Fin n) : ℝ :=
  if i ∈ s then v else d i

theorem resetAll_ofReals (is : List (Fin n)) (v : ℝ) : (ofReals l d).resetAll is (.finite v) =
    ofReals (withoutRows l is.toFinset) (withEntries d is.toFinset v) := by
  rw [resetAll_eq]
  unfold ofReals
  congr 1
  . apply square_ext
    intro r c
    rw [Square.getElem_ofFn, getElem_squareOfReals, getElem_squareOfReals, getElem_ofReals,
      getElem_ofReals]
    unfold withoutRows
    simp only [List.mem_toFinset]
    rw [apply_ite Extended.finite, apply_ite Extended.finite]
    rfl
  . rw [eq_ofReals_iff]
    intro i
    rw [getElem_vectorOfFn, getElem_ofReals]
    unfold withEntries
    simp only [List.mem_toFinset]
    rw [apply_ite Extended.finite]

theorem IsUnitLower.withoutRows (hl : IsUnitLower l) (s : Finset (Fin n)) :
    IsUnitLower (withoutRows l s) where
  diag := by
    intro r
    unfold Factor.withoutRows
    rw [if_pos rfl, hl.diag, ite_self]
  above := by
    intro r c hrc
    unfold Factor.withoutRows
    rw [if_neg hrc.ne, hl.above r c hrc, ite_self]

end Reset

end Factor

end BoxDescent

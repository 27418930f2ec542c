import BoxDescent.Proofs.Exact.Factor

/-!
This module contains the search direction for factors that need only be factors over the free variables:
nothing that belongs to a fixed variable has any influence on it (`direction_congr`). With positive diagonal
entries it is the one of Newton's method and descends, and the first zero among them is where it fails
(`direction_newton`).
-/

namespace BoxDescent.Factor

open Extended

variable {n : Nat} {l l' : Fin n → Fin n → ℝ} {d d' grad grad' : Fin n → ℝ} {fixed : Vector Bool n}

structure IsUnitLowerOn (fixed : Vector Bool n) (l : Fin n → Fin n → ℝ) : Prop where
  diag : ∀ i : Fin n, fixed[i] = false → l i i = 1
  above : ∀ i j : Fin n, fixed[i] = false → fixed[j] = false → i < j → l i j = 0

structure AgreeOnFree (fixed : Vector Bool n) (l l' : Fin n → Fin n → ℝ) (d d' grad grad' : Fin n → ℝ) :
    Prop where
  lower : ∀ i j : Fin n, fixed[i] = false → fixed[j] = false → l i j = l' i j
  diag : ∀ i : Fin n, fixed[i] = false → d i = d' i
  grad : ∀ i : Fin n, fixed[i] = false → grad i = grad' i

theorem free_of_not_finite {t : Triangle} {m : Square Extended n} {b : Vector Extended n} {i : Fin n}
    (h : firstNonFinite? (t.solve m b fixed) = some i) : fixed[i] = false := by
  have hi := (firstNonFinite?_eq_some_iff.mp h).1
  rw [Triangle.getElem_solve] at hi
  split at hi
  . cases hi
  . next hfree => exact Bool.eq_false_iff.mpr hfree

namespace AgreeOnFree

theorem forward (h : AgreeOnFree fixed l l' d d' grad grad') :
    Triangle.lower.Agrees fixed (fun i j => if fixed[j] then 0 else l i j * d j)
      (fun i j => if fixed[j] then 0 else l' i j * d' j) (fun i => if fixed[i] then 0 else -grad i)
      (fun i => if fixed[i] then 0 else -grad' i) where
  entry := by
    intro j k hj hk _
    rw [if_neg (Bool.eq_false_iff.mp hk), if_neg (Bool.eq_false_iff.mp hk), h.lower j k hj hk, h.diag k hk]
  rhs := by
    intro j hj
    rw [if_neg (Bool.eq_false_iff.mp hj), if_neg (Bool.eq_false_iff.mp hj), h.grad j hj]

theorem backward (h : AgreeOnFree fixed l l' d d' grad grad') (y : Fin n → ℝ) :
    Triangle.upper.Agrees fixed (fun i j => l j i) (fun i j => l' j i) y y where
  entry := fun j k hj hk _ => h.lower k j hk hj
  rhs := fun _ _ => rfl

end AgreeOnFree

theorem direction_congr (h : AgreeOnFree fixed l l' d d' grad grad') :
    (ofReals l d).direction (BoxDescent.ofReals grad) fixed =
      (ofReals l' d').direction (BoxDescent.ofReals grad') fixed := by
  have hlower : ∀ (l : Fin n → Fin n → ℝ) d, (ofReals l d).lower = Square.ofReals l := fun _ _ => rfl
  have hdiag : ∀ (l : Fin n → Fin n → ℝ) d (i : Fin n), (ofReals l d).diag[i] = .finite (d i) :=
    fun _ d i => getElem_ofReals d i
  unfold direction
  dsimp only
  rw [rhs_ofReals, rhs_ofReals, scaled_ofReals, scaled_ofReals, Triangle.solve_congr h.forward, hlower,
    hlower, transpose_ofReals, transpose_ofReals]
  cases hforward : firstNonFinite? (Triangle.lower.solve
      (Square.ofReals fun i j => if fixed[j] then 0 else l' i j * d' j)
      (BoxDescent.ofReals fun i => if fixed[i] then 0 else -grad' i) fixed) with
  | some i =>
    have hi := free_of_not_finite hforward
    dsimp only
    rw [getElem_ofReals, getElem_ofReals, if_neg (Bool.eq_false_iff.mp hi),
      if_neg (Bool.eq_false_iff.mp hi), hdiag, hdiag, h.grad i hi, h.diag i hi]
  | none =>
    obtain ⟨y, hy⟩ := firstNonFinite?_eq_none_iff.mp hforward
    dsimp only
    rw [hy, Triangle.solve_congr (h.backward y)]
    cases hbackward : firstNonFinite? (Triangle.upper.solve (Square.ofReals fun i j => l' j i)
        (BoxDescent.ofReals y) fixed) with
    | some i =>
      have hi := free_of_not_finite hbackward
      dsimp only
      rw [getElem_squareOfReals, getElem_squareOfReals, getElem_ofReals (l i), getElem_ofReals (l' i),
        h.lower i i hi hi]
    | none => rfl

def freePart (fixed : Vector Bool n) (l : Fin n → Fin n → ℝ) (i j : Fin n) : ℝ :=
  if fixed[i] ∨ fixed[j] then if i = j then 1 else 0 else l i j

theorem freePart_of_free {i j : Fin n} (hi : fixed[i] = false) (hj : fixed[j] = false) :
    freePart fixed l i j = l i j := by
  unfold freePart
  rw [if_neg]
  rw [hi, hj]
  simp

theorem IsUnitLowerOn.freePart (hl : IsUnitLowerOn fixed l) : IsUnitLower (freePart fixed l) where
  diag := by
    intro i
    unfold Factor.freePart
    split
    . exact if_pos rfl
    . next h => exact hl.diag i (Bool.eq_false_iff.mpr fun hi => h (Or.inl hi))
  above := by
    intro i j hij
    unfold Factor.freePart
    split
    . exact if_neg hij.ne
    . next h =>
      exact hl.above i j (Bool.eq_false_iff.mpr fun hi => h (Or.inl hi))
        (Bool.eq_false_iff.mpr fun hj => h (Or.inr hj)) hij

theorem agreeOnFree_freePart (fixed : Vector Bool n) (l : Fin n → Fin n → ℝ) (d grad : Fin n → ℝ) :
    AgreeOnFree fixed l (freePart fixed l) d d grad grad where
  lower := fun _ _ hi hj => (freePart_of_free hi hj).symm
  diag := fun _ _ => rfl
  grad := fun _ _ => rfl

theorem isDirection_freePart {p : Fin n → ℝ} (h : IsDirection (freePart fixed l) d grad fixed p) :
    IsDirection l d grad fixed p where
  onFixed := h.onFixed
  onFree := by
    intro i hi
    rw [← h.onFree i hi]
    apply Finset.sum_congr rfl
    intro k hk
    unfold product
    congr 1
    apply Finset.sum_congr rfl
    intro j hj
    rw [freePart_of_free hi (mem_freeSet.mp hj), freePart_of_free (mem_freeSet.mp hk) (mem_freeSet.mp hj)]

/-- With factors over the free variables the direction solves the equation of Newton's method there. It
descends, unless the gradient is zero on the free variables. If some entry of `D` is zero there, no
direction is found, for the first such entry. In either case nothing that belongs to a fixed variable has any
influence. -/
theorem direction_newton (hl : IsUnitLowerOn fixed l) (d grad : Fin n → ℝ) :
    ((∀ i : Fin n, fixed[i] = false → 0 < d i) → ∃ p,
      (ofReals l d).direction (BoxDescent.ofReals grad) fixed = .ok (BoxDescent.ofReals p) ∧
      IsDirection l d grad fixed p ∧ ∑ i ∈ freeSet fixed, grad i * p i ≤ 0 ∧
      (∑ i ∈ freeSet fixed, grad i * p i = 0 → ∀ i : Fin n, fixed[i] = false → grad i = 0)) ∧
    ((∀ i : Fin n, fixed[i] = false → 0 ≤ d i) → (∃ j : Fin n, fixed[j] = false ∧ d j = 0) →
      ∃ j : Fin n, fixed[j] = false ∧ d j = 0 ∧ (∀ i, i < j → fixed[i] = false → 0 < d i) ∧
        (ofReals l d).direction (BoxDescent.ofReals grad) fixed =
          .error (.breakdown (.direction .forward j (.finite (-grad j)) 0))) ∧
    ∀ l' d' grad', AgreeOnFree fixed l l' d d' grad grad' →
      (ofReals l' d').direction (BoxDescent.ofReals grad') fixed =
        (ofReals l d).direction (BoxDescent.ofReals grad) fixed := by
  have heq := direction_congr (agreeOnFree_freePart fixed l d grad)
  refine ⟨?_, ?_, fun _ _ _ h => (direction_congr h).symm⟩
  . intro hd
    obtain ⟨p, hp, hdirection⟩ := direction_ofReals hl.freePart hd grad
    refine ⟨p, heq.trans hp, isDirection_freePart hdirection, hdirection.slope_nonpos hd, ?_⟩
    intro hzero i hi
    apply Classical.byContradiction
    intro hne
    exact (hdirection.slope_neg hl.freePart hd ⟨i, mem_freeSet.mpr hi, hne⟩).ne hzero
  . intro hd hexists
    have hfirst := (Fin.exists_eq_true_iff_exists_minimal_eq_true
      fun j : Fin n => decide (fixed[j] = false ∧ d j = 0)).mp (by simpa using hexists)
    obtain ⟨j, hj, hbefore⟩ := hfirst
    obtain ⟨hfree, hzero⟩ := of_decide_eq_true hj
    have hpos : ∀ i, i < j → fixed[i] = false → 0 < d i := by
      intro i hij hi
      have hnot := of_decide_eq_false (hbefore i hij)
      exact lt_of_le_of_ne (hd i hi) fun h => hnot ⟨hi, h.symm⟩
    exact ⟨j, hfree, hzero, hpos,
      heq.trans (direction_singular hl.freePart hfree hzero (fun i hij hi => (hpos i hij hi).ne') grad)⟩

theorem direction_newton_gap :
    IsUnitLowerOn #v[false, true, false] (fun i j : Fin 3 => if i < j ∧ j ≠ 1 then 0 else 1) ∧
    (∃ p : Fin 3 → ℝ,
      (ofReals (fun i j => if i < j ∧ j ≠ 1 then 0 else 1) fun i => if i = 1 then 0 else 2).direction
        (BoxDescent.ofReals fun _ => 1) #v[false, true, false] = .ok (BoxDescent.ofReals p)) ∧
    (ofReals (fun i j => if i < j ∨ j = 1 then 0 else 1) fun _ => 2).direction
        (BoxDescent.ofReals fun _ => 1) #v[false, true, false] =
      (ofReals (fun i j => if i < j ∧ j ≠ 1 then 0 else 1) fun i => if i = 1 then 0 else 2).direction
        (BoxDescent.ofReals fun _ => 1) #v[false, true, false] ∧
    (ofReals (fun i j : Fin 3 => if i < j ∧ j ≠ 1 then 0 else 1) fun _ => 0).direction
        (BoxDescent.ofReals fun _ => 1) #v[false, true, false] =
      .error (.breakdown (.direction .forward 0 (.finite (-1)) 0)) := by
  have hne : ∀ j : Fin 3, #v[false, true, false][j] = false → j ≠ 1 := by decide
  have hl : IsUnitLowerOn #v[false, true, false] (fun i j : Fin 3 => if i < j ∧ j ≠ 1 then (0 : ℝ) else 1) := by
    constructor
    . intro i _
      exact if_neg fun h => lt_irrefl i h.1
    . intro i j _ hj hij
      exact if_pos ⟨hij, hne j hj⟩
  have hagree : AgreeOnFree #v[false, true, false] (fun i j : Fin 3 => if i < j ∧ j ≠ 1 then (0 : ℝ) else 1)
      (fun i j => if i < j ∨ j = 1 then 0 else 1) (fun i => if i = 1 then 0 else 2) (fun _ => 2)
      (fun _ => 1) (fun _ => 1) := by
    constructor
    . intro i j _ hj
      simp [hne j hj]
    . intro i hi
      exact if_neg (hne i hi)
    . exact fun _ _ => rfl
  obtain ⟨hsolved, _, hcongr⟩ := direction_newton hl (fun i => if i = 1 then 0 else 2) (fun _ => 1)
  obtain ⟨p, hp, _⟩ := hsolved (by
    intro i hi
    rw [if_neg (hne i hi)]
    exact two_pos)
  obtain ⟨_, hfails, _⟩ := direction_newton hl (fun _ => 0) (fun _ => 1)
  obtain ⟨j, _, _, hbefore, herror⟩ := hfails (fun _ _ => le_refl 0) ⟨0, rfl, rfl⟩
  have hj : j = 0 := by
    apply Classical.byContradiction
    intro h
    exact lt_irrefl _ (hbefore 0 (Fin.pos_iff_ne_zero.mpr h) rfl)
  rw [hj] at herror
  exact ⟨hl, ⟨p, hp⟩, hcongr _ _ _ hagree, herror⟩

end BoxDescent.Factor

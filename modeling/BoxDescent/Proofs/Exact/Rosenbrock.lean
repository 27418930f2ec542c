import Mathlib.Algebra.Polynomial.Derivative
import BoxDescent.Problem.Rosenbrock
import BoxDescent.Proofs.Exact.Vector

/-!
This module contains the derivatives of the Rosenbrock function. Along each variable the function and its
gradient are polynomials, whose linear coefficients are the partial derivative and the entry of the Hessian
(`derivatives_exact`). The formulas are read over any commutative ring for this, so that a variable may be
an indeterminate.
-/

namespace BoxDescent

open Extended Polynomial

variable {n : Nat}

namespace Rosenbrock

theorem after?_eq_some_iff {i j : Fin n} : after? i = some j ↔ i.val + 1 = j.val := by
  unfold after?
  split
  . rw [Option.some.injEq, Fin.ext_iff]
  . next h =>
    have hj := j.isLt
    exact ⟨nofun, fun hij => absurd (hij ▸ hj) h⟩

theorem before?_eq_some_iff {i j : Fin n} : before? i = some j ↔ after? j = some i := by
  rw [after?_eq_some_iff]
  unfold before?
  split
  . next h =>
    rw [Option.some.injEq, Fin.ext_iff]
    dsimp only
    omega
  . next h =>
    refine ⟨nofun, ?_⟩
    intro hij
    omega

theorem ne_of_after {i j : Fin n} (h : after? i = some j) : j ≠ i := by
  rw [after?_eq_some_iff] at h
  rintro rfl
  omega

theorem not_after_of_after {i j : Fin n} (h : after? i = some j) : ¬after? j = some i := by
  rw [after?_eq_some_iff] at h ⊢
  omega

section Symmetry

variable {α : Type} [Scalar α] (r : Rosenbrock α) (x : Vector α n) {i j : Fin n}

theorem getElem_hessianRow : (r.hessianRow x i)[j] =
    if j = i then r.diagonal x i
    else if after? i = some j then r.mixed x[i]
    else if after? j = some i then r.mixed x[j]
    else 0 := by
  unfold hessianRow
  rw [getElem_vectorOfFn]
  simp only [before?_eq_some_iff]

theorem hessianRow_symm : (r.hessianRow x i)[j] = (r.hessianRow x j)[i] := by
  rw [getElem_hessianRow, getElem_hessianRow]
  by_cases hij : j = i
  . rw [hij]
  . rw [if_neg hij, if_neg (Ne.symm hij)]
    by_cases hafter : after? i = some j
    . rw [if_pos hafter, if_neg (not_after_of_after hafter), if_pos hafter]
    . rw [if_neg hafter, if_neg hafter]

theorem hessianRow_eq_zero (h : i.val + 1 < j.val ∨ j.val + 1 < i.val) :
    (r.hessianRow x i)[j] = 0 := by
  have hij : ¬j = i := by
    rintro rfl
    omega
  have hafter : ¬after? i = some j := by
    rw [after?_eq_some_iff]
    omega
  have hbefore : ¬after? j = some i := by
    rw [after?_eq_some_iff]
    omega
  rw [getElem_hessianRow, if_neg hij, if_neg hafter, if_neg hbefore]

end Symmetry

section Ring

variable {R : Type*} [CommRing R] (a b : R) (y : Fin n → R)

theorem sum_after_of_some {i j : Fin n} (h : after? i = some j) (f : Fin n → R) :
    (∑ k, if after? i = some k then f k else 0) = f j := by
  simp only [h, Option.some.injEq, Finset.sum_ite_eq, Finset.mem_univ, if_true]

theorem sum_after_of_none {i : Fin n} (h : after? i = none) (f : Fin n → R) :
    (∑ k, if after? i = some k then f k else 0) = 0 := by
  simp only [h, reduceCtorEq, if_false, Finset.sum_const_zero]

theorem sum_before_of_some {i j : Fin n} (h : before? i = some j) (f : Fin n → R) :
    (∑ k, if after? k = some i then f k else 0) = f j := by
  simp only [← before?_eq_some_iff, h, Option.some.injEq, Finset.sum_ite_eq, Finset.mem_univ, if_true]

theorem sum_before_of_none {i : Fin n} (h : before? i = none) (f : Fin n → R) :
    (∑ k, if after? k = some i then f k else 0) = 0 := by
  simp only [← before?_eq_some_iff, h, reduceCtorEq, if_false, Finset.sum_const_zero]

def value : R :=
  ∑ i, ∑ j, if after? i = some j then
    (a - y i) * (a - y i) + b * ((y j - y i * y i) * (y j - y i * y i)) else 0

def slope (i : Fin n) : R :=
  (∑ j, if after? i = some j then -2 * (a - y i) - 4 * b * y i * (y j - y i * y i) else 0) +
    ∑ k, if after? k = some i then 2 * b * (y i - y k * y k) else 0

variable {S : Type*} [CommRing S] (φ : R →+* S)

theorem map_value : φ (value a b y) = value (φ a) (φ b) fun k => φ (y k) := by
  unfold value
  simp only [map_sum, apply_ite φ, map_add, map_sub, map_mul, map_zero]

theorem map_slope (i : Fin n) : φ (slope a b y i) = slope (φ a) (φ b) (fun k => φ (y k)) i := by
  unfold slope
  simp only [map_sum, apply_ite φ, map_add, map_sub, map_mul, map_neg, map_zero, map_ofNat]

end Ring

noncomputable def line (x : Fin n → ℝ) (i k : Fin n) : ℝ[X] :=
  C (x k) + if k = i then X else 0

section Line

variable (x : Fin n → ℝ) (i k : Fin n)

theorem eval_line (t : ℝ) : (line x i k).eval t = (x + Pi.single i t : Fin n → ℝ) k := by
  unfold line
  rw [eval_add, eval_C, Pi.add_apply, Pi.single_apply]
  split
  . rw [eval_X]
  . rw [eval_zero]

theorem eval_zero_line : (line x i k).eval 0 = x k := by
  rw [eval_line, Pi.single_zero, add_zero]

theorem derivative_line : derivative (line x i k) = if k = i then 1 else 0 := by
  unfold line
  rw [derivative_add, derivative_C, zero_add]
  split
  . rw [derivative_X]
  . rw [derivative_zero]

theorem coeff_one_eq (p : ℝ[X]) : p.coeff 1 = (derivative p).eval 0 := by
  rw [← coeff_zero_eq_eval_zero, coeff_derivative, Nat.cast_zero,
    zero_add, zero_add, mul_one]

end Line

section Reals

variable (a b : ℝ) (x : Fin n → ℝ)

theorem sum_neighbours (i : Fin n) (f g : Fin n → Fin n → ℝ) :
    (∑ k, ∑ j, ((if k = i then f k j else 0) + if j = i then g k j else 0)) =
      (∑ j, f i j) + ∑ k, g k i := by
  simp only [Finset.sum_add_distrib]
  rw [Finset.sum_comm]
  simp only [Finset.sum_ite_eq', Finset.mem_univ, if_true]

theorem sum_at (j : Fin n) (p : Fin n → Prop) [DecidablePred p] (f : Fin n → ℝ) :
    (∑ m, if p m then if m = j then f m else 0 else 0) = if p j then f j else 0 := by
  rw [Finset.sum_eq_single j]
  . rw [if_pos rfl]
  . intro m _ hm
    rw [if_neg hm, ite_self]
  . exact fun h => absurd (Finset.mem_univ j) h

theorem coeff_value (i : Fin n) : (value (C a) (C b) (line x i)).coeff 1 = slope a b x i := by
  have hterm : ∀ k j : Fin n, eval 0 (derivative (if after? k = some j then
      (C a - line x i k) * (C a - line x i k) + C b * ((line x i j - line x i k * line x i k) *
        (line x i j - line x i k * line x i k)) else 0)) =
      (if k = i then if after? k = some j then
        -2 * (a - x k) - 4 * b * x k * (x j - x k * x k) else 0 else 0) +
      if j = i then if after? k = some j then 2 * b * (x j - x k * x k) else 0 else 0 := by
    intro k j
    split
    . simp only [derivative_add, derivative_sub, derivative_mul, derivative_C, derivative_line, eval_add,
        eval_sub, eval_mul, eval_C, eval_zero_line, eval_zero]
      split
      . split
        . rw [eval_one]
          ring
        . rw [eval_one, eval_zero]
          ring
      . split
        . rw [eval_one, eval_zero]
          ring
        . rw [eval_zero]
          ring
    . rw [derivative_zero, eval_zero, ite_self, ite_self, add_zero]
  rw [coeff_one_eq]
  unfold value slope
  simp only [derivative_sum, eval_finsetSum, hterm, sum_neighbours]

theorem coeff_slope (i j : Fin n) : (slope (C a) (C b) (line x j) i).coeff 1 =
    (∑ m, if after? i = some m then (if i = j then 2 - 4 * b * (x m - 3 * (x i * x i)) else 0) +
      if m = j then -4 * b * x i else 0 else 0) +
    ∑ k, if after? k = some i then (if i = j then 2 * b else 0) +
      if k = j then -4 * b * x k else 0 else 0 := by
  have hown : ∀ m : Fin n, eval 0 (derivative (if after? i = some m then -2 * (C a - line x j i) -
      4 * C b * line x j i * (line x j m - line x j i * line x j i) else 0)) =
      if after? i = some m then (if i = j then 2 - 4 * b * (x m - 3 * (x i * x i)) else 0) +
        if m = j then -4 * b * x i else 0 else 0 := by
    intro m
    split
    . simp only [derivative_sub, derivative_mul, derivative_neg, derivative_ofNat, derivative_C,
        derivative_line, eval_add, eval_sub, eval_mul, eval_neg, eval_ofNat, eval_C, eval_zero_line,
        apply_ite (eval (0 : ℝ)), eval_one, eval_zero]
      split_ifs <;> ring
    . rw [derivative_zero, eval_zero]
  have hbefore : ∀ k : Fin n, eval 0 (derivative (if after? k = some i then
      2 * C b * (line x j i - line x j k * line x j k) else 0)) =
      if after? k = some i then (if i = j then 2 * b else 0) +
        if k = j then -4 * b * x k else 0 else 0 := by
    intro k
    split
    . simp only [derivative_sub, derivative_mul, derivative_ofNat, derivative_C, derivative_line, eval_add,
        eval_sub, eval_mul, eval_ofNat, eval_C, eval_zero_line, apply_ite (eval (0 : ℝ)), eval_one,
        eval_zero]
      split_ifs <;> ring
    . rw [derivative_zero, eval_zero]
  rw [coeff_one_eq]
  unfold slope
  simp only [derivative_add, eval_add, derivative_sum, eval_finsetSum, hown, hbefore]

noncomputable def ofReals (a b : ℝ) : Rosenbrock Extended :=
  { a := .finite a, b := .finite b }

theorem objective_ofReals :
    (ofReals a b).objective (BoxDescent.ofReals x) = .finite (value a b x) := by
  have hsum : (ofReals a b).objective (BoxDescent.ofReals x) =
      sumOver ((List.finRange n).filter fun i => (after? i).isSome) fun i => Extended.finite
        (∑ j, if after? i = some j then
          (a - x i) * (a - x i) + b * ((x j - x i * x i) * (x j - x i * x i)) else 0) := by
    unfold objective
    apply sumOver_congr
    intro i _
    split
    . next j hj =>
      rw [sum_after_of_some hj]
      unfold ofReals residual
      simp only [getElem_ofReals, finite_sub, square_finite, finite_mul, finite_add]
    . next hnone =>
      rw [sum_after_of_none hnone]
      rfl
  rw [hsum, sumOver_finite, ← List.sum_toFinset _ ((List.nodup_finRange n).filter _),
    List.toFinset_filter, List.toFinset_finRange, Finset.sum_filter_of_ne]
  . rfl
  . intro i _ hi
    rw [Option.isSome_iff_ne_none]
    intro hnone
    exact hi (sum_after_of_none hnone _)

theorem terms_eq {i : Fin n} {u v : Fin n → Extended} {f g : Fin n → ℝ} (hu : ∀ j, u j = .finite (f j))
    (hv : ∀ k, v k = .finite (g k)) :
    (let own := match after? i with
      | some j => u j
      | none => 0
    match before? i with
      | some k => own + v k
      | none => own) =
    .finite ((∑ m, if after? i = some m then f m else 0) + ∑ k, if after? k = some i then g k else 0) := by
  have hown : (match after? i with
      | some j => u j
      | none => 0) = Extended.finite (∑ m, if after? i = some m then f m else 0) := by
    split
    . next j hj => rw [sum_after_of_some hj, hu]
    . next hnone => rw [sum_after_of_none hnone, zero_eq]
  dsimp only
  rw [hown]
  split
  . next k hk => rw [sum_before_of_some hk, hv, finite_add]
  . next hnone => rw [sum_before_of_none hnone, add_zero]

theorem getElem_gradient (i : Fin n) :
    ((ofReals a b).gradient (BoxDescent.ofReals x))[i] = .finite (slope a b x i) := by
  unfold gradient partialDerivative slope ofReals residual
  rw [getElem_vectorOfFn]
  simp only [getElem_ofReals, square_finite, ofScientific_eq, finite_neg, finite_sub, finite_mul]
  apply terms_eq
  . intro j
    norm_num
  . intro k
    norm_num

theorem diagonal_ofReals (i : Fin n) : (ofReals a b).diagonal (BoxDescent.ofReals x) i =
    .finite ((∑ m, if after? i = some m then 2 - 4 * b * (x m - 3 * (x i * x i)) else 0) +
      ∑ k, if after? k = some i then 2 * b else 0) := by
  unfold diagonal bend ofReals
  simp only [getElem_ofReals, square_finite, ofScientific_eq, finite_sub, finite_mul]
  apply terms_eq
  . intro j
    norm_num
  . intro k
    norm_num

theorem mixed_ofReals (i : Fin n) :
    (ofReals a b).mixed (BoxDescent.ofReals x)[i] = .finite (-4 * b * x i) := by
  unfold mixed ofReals
  rw [getElem_ofReals, ofScientific_eq, finite_neg, finite_mul, finite_mul]
  norm_num

theorem getElem_hessianRow_ofReals (i j : Fin n) :
    ((ofReals a b).hessianRow (BoxDescent.ofReals x) i)[j] =
      .finite ((slope (C a) (C b) (line x j) i).coeff 1) := by
  rw [coeff_slope, getElem_hessianRow]
  by_cases hij : j = i
  . subst hij
    have hnext : ∀ m : Fin n, after? j = some m → ¬m = j := fun m h => ne_of_after h
    have hbefore : ∀ k : Fin n, after? k = some j → ¬k = j := fun k h => (ne_of_after h).symm
    rw [if_pos rfl, diagonal_ofReals]
    congr 2
    . apply Finset.sum_congr rfl
      intro m _
      split
      . next h => rw [if_pos rfl, if_neg (hnext m h), add_zero]
      . rfl
    . apply Finset.sum_congr rfl
      intro k _
      split
      . next h => rw [if_pos rfl, if_neg (hbefore k h), add_zero]
      . rfl
  . simp only [if_neg hij, if_neg (Ne.symm hij), zero_add, sum_at]
    by_cases hafter : after? i = some j
    . rw [if_pos hafter, if_pos hafter, if_neg (not_after_of_after hafter), add_zero, mixed_ofReals]
    . rw [if_neg hafter, if_neg hafter, zero_add]
      split
      . rw [mixed_ofReals]
      . rfl

theorem objective_line (i : Fin n) (t : ℝ) :
    (ofReals a b).objective (BoxDescent.ofReals (x + Pi.single i t)) =
      .finite ((value (C a) (C b) (line x i)).eval t) := by
  have hvalue := map_value (C a) (C b) (line x i) (evalRingHom t)
  simp only [coe_evalRingHom, eval_C, eval_line] at hvalue
  rw [objective_ofReals, hvalue]

theorem gradient_line (i j : Fin n) (t : ℝ) :
    ((ofReals a b).gradient (BoxDescent.ofReals (x + Pi.single j t)))[i] =
      .finite ((slope (C a) (C b) (line x j) i).eval t) := by
  have hslope := map_slope (C a) (C b) (line x j) (evalRingHom t) i
  simp only [coe_evalRingHom, eval_C, eval_line] at hslope
  rw [getElem_gradient, hslope]

/-- The gradient and the Hessian are the derivatives of the objective and the gradient. -/
theorem derivatives_exact (i j : Fin n) :
    (∃ f : ℝ[X],
      (∀ t, (ofReals a b).objective (BoxDescent.ofReals (x + Pi.single i t)) = .finite (f.eval t)) ∧
        ((ofReals a b).gradient (BoxDescent.ofReals x))[i] = .finite (f.coeff 1)) ∧
      (∃ g : ℝ[X],
        (∀ t, ((ofReals a b).gradient (BoxDescent.ofReals (x + Pi.single j t)))[i] =
          .finite (g.eval t)) ∧
        ((ofReals a b).hessianRow (BoxDescent.ofReals x) i)[j] = .finite (g.coeff 1)) ∧
      ((ofReals a b).hessianRow (BoxDescent.ofReals x) i)[j] =
        ((ofReals a b).hessianRow (BoxDescent.ofReals x) j)[i] ∧
      (i.val + 1 < j.val ∨ j.val + 1 < i.val →
        ((ofReals a b).hessianRow (BoxDescent.ofReals x) i)[j] = .finite 0) := by
  refine ⟨⟨value (C a) (C b) (line x i), ?_, ?_⟩, ⟨slope (C a) (C b) (line x j) i, ?_, ?_⟩, ?_, ?_⟩
  . exact objective_line a b x i
  . rw [getElem_gradient, coeff_value]
  . exact gradient_line a b x i j
  . exact getElem_hessianRow_ofReals a b x i j
  . exact hessianRow_symm (ofReals a b) (BoxDescent.ofReals x)
  . exact hessianRow_eq_zero (ofReals a b) (BoxDescent.ofReals x)

end Reals

end Rosenbrock

end BoxDescent

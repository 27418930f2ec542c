import BoxDescent.Proofs.Exact.DerivativeCheck
import BoxDescent.Proofs.Exact.Quadratic

/-!
This module contains forward differences of a quadratic. Those of its gradient are the entries of the matrix;
those of its objective are off by half the step times a diagonal entry (`checkDerivatives_quadratic`).
-/

namespace BoxDescent

open Extended DerivativeCheck

variable {n : Nat} {a : Fin n → Fin n → ℝ} {linear : Fin n → ℝ} {constant h : ℝ}

namespace Quadratic

theorem value_difference (ha : ∀ i j, a i j = a j i) (hh : h ≠ 0) (x : Fin n → ℝ) (i : Fin n) :
    (value a linear constant (x + Pi.single i h) - value a linear constant x) / h =
      ∑ j, a i j * x j + linear i + h / 2 * a i i := by
  have hsingle : ∀ f : Fin n → ℝ, ∑ j, (Pi.single i h : Fin n → ℝ) j * f j = h * f i := by
    intro f
    simp only [Pi.single_apply, ite_mul, zero_mul, Finset.sum_ite_eq', Finset.mem_univ, if_true]
  have hform : ∑ j, a i j * (Pi.single i h : Fin n → ℝ) j = h * a i i := by
    simp only [mul_comm (a i _), hsingle]
  rw [value_add ha, hsingle, hsingle, hform]
  field_simp
  ring

theorem gradient_difference (hh : h ≠ 0) (x : Fin n → ℝ) (i j : Fin n) :
    (∑ k, a i k * (x + Pi.single j h : Fin n → ℝ) k + linear i - (∑ k, a i k * x k + linear i)) / h =
      a i j := by
  have hsum : ∑ k, a i k * (x + Pi.single j h : Fin n → ℝ) k = ∑ k, a i k * x k + a i j * h := by
    simp only [Pi.add_apply, mul_add, Finset.sum_add_distrib, Pi.single_apply, mul_ite, mul_zero,
      Finset.sum_ite_eq', Finset.mem_univ, if_true]
  rw [hsum]
  field_simp
  ring

section Differences

variable {root : Extended} (x : Fin n → ℝ)

theorem objective_differences (ha : ∀ i j, a i j = a j i) (hh : h ≠ 0) :
    forwardDifferences root (.finite h) (ofReals a linear constant).problem.objective
        (BoxDescent.ofReals x) =
      .ok (BoxDescent.ofReals fun i => ∑ j, a i j * x j + linear i + h / 2 * a i i) := by
  rw [forwardDifferences_ofReals hh (problem_objective a linear constant x)
    fun i => problem_objective a linear constant _, Except.ok.injEq, eq_ofReals_iff]
  intro i
  rw [getElem_vectorOfFn, finite_sub, finite_div hh, value_difference ha hh]

theorem entry_eq (y : Fin n → ℝ) (i : Fin n) :
    (do return (← (ofReals a linear constant).problem.gradient (BoxDescent.ofReals y))[i]) =
      (.ok (.finite (∑ k, a i k * y k + linear i)) : Except (Fault Extended) Extended) := by
  rw [problem_gradient]
  exact congrArg Except.ok (getElem_ofReals _ i)

theorem entry_differences (hh : h ≠ 0) (i : Fin n) :
    forwardDifferences root (.finite h)
        (fun z => do return (← (ofReals a linear constant).problem.gradient z)[i]) (BoxDescent.ofReals x) =
      .ok (BoxDescent.ofReals (a i)) := by
  rw [forwardDifferences_ofReals hh (entry_eq x i) fun j => entry_eq _ i, Except.ok.injEq,
    eq_ofReals_iff]
  intro j
  rw [getElem_vectorOfFn, finite_sub, finite_div hh, gradient_difference hh]

noncomputable def checked (a : Fin n → Fin n → ℝ) (linear : Fin n → ℝ) (h tolerance : ℝ) (x : Fin n → ℝ) :
    Result Extended n n :=
  { tolerance := .finite tolerance
    gradient := DerivativeCheck.compare (BoxDescent.ofReals fun i => ∑ j, a i j * x j + linear i)
      (BoxDescent.ofReals fun i => ∑ j, a i j * x j + linear i + h / 2 * a i i)
    hessian := some (Vector.ofFn fun i =>
      some (DerivativeCheck.compare (BoxDescent.ofReals (a i)) (BoxDescent.ofReals (a i)))) }

theorem check_eq (ha : ∀ i j, a i j = a j i) (hh : h ≠ 0) (tolerance : ℝ) :
    checkDerivatives (ofReals a linear constant).problem root (BoxDescent.ofReals x)
      (some (.finite h)) (.finite tolerance) = .ok (checked a linear h tolerance x) := by
  rw [checkDerivatives_eq_ok_iff]
  refine ⟨rfl, ⟨_, _, problem_gradient a linear constant x, objective_differences x ha hh, rfl⟩,
    nofun, ?_⟩
  intro row hrow
  cases hrow
  refine ⟨_, rfl, ?_⟩
  intro i
  refine ⟨_, _, rfl, entry_differences x hh i, ?_⟩
  rw [getElem_vectorOfFn]
  unfold ofReals
  rw [getElem_squareOfReals]
  rfl

theorem check_model_eq (ha : ∀ i j, a i j = a j i) (hh : h ≠ 0) (tolerance : ℝ) (printed : Bool) :
    Input.checkDerivatives (.ofQuadratic (ofReals a linear constant)) root (BoxDescent.ofReals x)
      (some (.finite h)) (.finite tolerance) printed = .ok ⟨n, checked a linear h tolerance x⟩ := by
  rw [Input.checkDerivatives_eq (Model.fits_ofQuadratic _), Model.problem_ofQuadratic,
    check_eq x ha hh tolerance]
  rfl

end Differences

theorem checked_gradient_error (hh : 0 < h) (tolerance : ℝ) (x : Fin n → ℝ) (i : Fin n) :
    (checked a linear h tolerance x).gradient[i].error =
      .finite (h / 2 * |a i i| / max |∑ j, a i j * x j + linear i| 1) := by
  unfold checked
  rw [getElem_compare, getElem_ofReals, getElem_ofReals, Comparison.error_finite, sub_add_cancel_left,
    abs_neg, abs_mul, abs_of_pos (half_pos hh)]

theorem checked_gradient_isBad (hh : 0 < h) (tolerance : ℝ) (x : Fin n → ℝ) (i : Fin n) :
    (checked a linear h tolerance x).gradient[i].isBad (.finite tolerance) = true ↔
      ¬h * |a i i| ≤ 2 * tolerance * max |∑ j, a i j * x j + linear i| 1 := by
  have hpos : 0 < max |∑ j, a i j * x j + linear i| 1 := lt_max_of_lt_right one_pos
  rw [Comparison.isBad_iff, checked_gradient_error hh, finite_lt, lt_div_iff₀ hpos, not_le]
  constructor
  . intro hlt
    linarith
  . intro hlt
    linarith

theorem checked_row_error (i j : Fin n) :
    (DerivativeCheck.compare (BoxDescent.ofReals (a i)) (BoxDescent.ofReals (a i)))[j].error =
      .finite 0 := by
  rw [getElem_compare, getElem_ofReals, Comparison.error_finite, sub_self, abs_zero, zero_div]

theorem checked_ok (hh : 0 < h) {tolerance : ℝ} (ht : 0 ≤ tolerance) (x : Fin n → ℝ) :
    (checked a linear h tolerance x).ok = true ↔
      ∀ i, h * |a i i| ≤ 2 * tolerance * max |∑ j, a i j * x j + linear i| 1 := by
  have hgradient : ∀ i : Fin n, (checked a linear h tolerance x).gradient[i].isBad (.finite tolerance) =
      false ↔ h * |a i i| ≤ 2 * tolerance * max |∑ j, a i j * x j + linear i| 1 := by
    intro i
    rw [← Bool.not_eq_true, checked_gradient_isBad hh, not_not]
  rw [Result.ok_iff]
  constructor
  . intro hok i
    exact (hgradient i).mp (hok.1 i)
  . intro hle
    refine ⟨fun i => (hgradient i).mpr (hle i), ?_⟩
    intro rows hrows i row hrow j
    cases hrows
    rw [getElem_vectorOfFn] at hrow
    cases hrow
    rw [Comparison.isBad_eq_false_iff, checked_row_error]
    exact Or.inl ht

end Quadratic

/-- The Hessian of a quadratic passes the check, and its gradient does as long as the step is small compared
with the diagonal entries. -/
theorem checkDerivatives_quadratic (ha : ∀ i j, a i j = a j i) (hh : 0 < h) {tolerance : ℝ}
    (ht : 0 ≤ tolerance) (linear : Fin n → ℝ) (constant : ℝ) (root : Extended) (x : Fin n → ℝ)
    (printed : Bool) :
    ∃ (q : Quadratic Extended n) (r : Result Extended n n)
      (rows : Vector (Option (Vector (Comparison Extended) n)) n),
      Quadratic.ofMatrix (Square.ofReals a) (ofReals linear) (.finite constant) = .ok q ∧
        Input.checkDerivatives (.ofQuadratic q) root (ofReals x) (some (.finite h)) (.finite tolerance)
          printed = .ok ⟨n, r⟩ ∧
        r.hessian = some rows ∧
        (∀ i : Fin n, ∃ row, rows[i] = some row ∧ ∀ j : Fin n, row[j].error = .finite 0) ∧
        (∀ i : Fin n, r.gradient[i].error =
          .finite (h / 2 * |a i i| / max |∑ j, a i j * x j + linear i| 1)) ∧
        (r.ok = true ↔
          ∀ i, h * |a i i| ≤ 2 * tolerance * max |∑ j, a i j * x j + linear i| 1) ∧
        r.badGradient.Pairwise (· < ·) ∧
        ∀ i, i ∈ r.badGradient ↔
          ¬h * |a i i| ≤ 2 * tolerance * max |∑ j, a i j * x j + linear i| 1 := by
  refine ⟨_, Quadratic.checked a linear h tolerance x, _, Quadratic.ofMatrix_ofReals ha,
    Quadratic.check_model_eq x ha hh.ne' tolerance printed, rfl, ?_, ?_, ?_, ?_, ?_⟩
  . intro i
    exact ⟨_, getElem_vectorOfFn _ i, Quadratic.checked_row_error i⟩
  . exact Quadratic.checked_gradient_error hh tolerance x
  . exact Quadratic.checked_ok hh ht x
  . exact Result.pairwise_badGradient
  . intro i
    rw [Result.mem_badGradient]
    exact Quadratic.checked_gradient_isBad hh tolerance x i

theorem checkDerivatives_quadratic_trough :
    ∃ (q : Quadratic Extended 2) (r : Result Extended 2 2)
      (rows : Vector (Option (Vector (Comparison Extended) 2)) 2),
      Quadratic.ofMatrix (Square.ofReals Trough.matrix) (ofReals fun _ => 0) (.finite 0) = .ok q ∧
        Input.checkDerivatives (.ofQuadratic q) 0 (ofReals ![7 / 4, -7 / 2]) (some (.finite 1))
          (.finite (1 / 4)) false = .ok ⟨2, r⟩ ∧
        r.hessian = some rows ∧
        (∀ i : Fin 2, ∃ row, rows[i] = some row ∧ ∀ j : Fin 2, row[j].error = .finite 0) ∧
        r.gradient[(0 : Fin 2)].error = .finite (3 / 7) ∧ r.gradient[(1 : Fin 2)].error = .finite (1 / 4) ∧
        ¬r.ok = true ∧ 0 ∈ r.badGradient ∧ 1 ∉ r.badGradient := by
  have hsymm : ∀ i j, Trough.matrix i j = Trough.matrix j i := by
    unfold Trough.matrix
    rw [Fin.forall_fin_two, Fin.forall_fin_two, Fin.forall_fin_two]
    exact ⟨⟨rfl, rfl⟩, rfl, rfl⟩
  have hgradient : ∑ j, Trough.matrix 0 j * (![7 / 4, -7 / 2] : Fin 2 → ℝ) j + 0 = 7 := by
    rw [Fin.sum_univ_two]
    show 6 * (7 / 4) + 1 * (-7 / 2) + 0 = (7 : ℝ)
    norm_num
  have hgradient' : ∑ j, Trough.matrix 1 j * (![7 / 4, -7 / 2] : Fin 2 → ℝ) j + 0 = 0 := by
    rw [Fin.sum_univ_two]
    show 1 * (7 / 4) + 1 / 2 * (-7 / 2) + 0 = (0 : ℝ)
    norm_num
  have hdiag : Trough.matrix 0 0 = 6 := rfl
  have hdiag' : Trough.matrix 1 1 = 1 / 2 := rfl
  obtain ⟨q, r, rows, hq, hr, hrows, hzero, herror, hok, _, hbad⟩ :=
    checkDerivatives_quadratic hsymm one_pos (by norm_num : (0 : ℝ) ≤ 1 / 4) (fun _ => 0) 0 0
      ![7 / 4, -7 / 2] false
  have hlarge : ¬1 * |Trough.matrix 0 0| ≤
      2 * (1 / 4) * max |∑ j, Trough.matrix 0 j * (![7 / 4, -7 / 2] : Fin 2 → ℝ) j + 0| 1 := by
    rw [hgradient, hdiag]
    norm_num
  refine ⟨q, r, rows, hq, hr, hrows, hzero, ?_, ?_, ?_, ?_, ?_⟩
  . rw [herror, hgradient, hdiag]
    norm_num
  . rw [herror, hgradient', hdiag']
    norm_num
  . exact fun h => hlarge (hok.mp h 0)
  . exact (hbad 0).mpr hlarge
  . rw [hbad, not_not, hgradient', hdiag']
    norm_num

end BoxDescent

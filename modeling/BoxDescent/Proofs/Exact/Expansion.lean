import BoxDescent.Proofs.Exact.Quadratic

/-!
This module contains the expansion of a quadratic around a point. Gradient and Hessian give the change of the
objective exactly if the matrix is symmetric, and only then. For one that merely passes as symmetric, the rest
is no larger than the tolerance of that test allows (`quadratic_expands`).
-/

namespace BoxDescent

open Extended

variable {n : Nat} {a : Fin n → Fin n → ℝ} {linear : Fin n → ℝ} {constant : ℝ}

def Problem.Expands (p : Problem Extended n) (x v : Fin n → ℝ) (rest : ℝ) : Prop :=
  ∃ (before after : ℝ) (g : Fin n → ℝ) (rows : Fin n → Fin n → ℝ),
    p.objective (ofReals x) = .ok (.finite before) ∧
    p.objective (ofReals (x + v)) = .ok (.finite after) ∧
    p.gradient (ofReals x) = .ok (ofReals g) ∧
    (∃ row, p.hessianRow = some row ∧ ∀ i, row (ofReals x) i = .ok (some (ofReals (rows i)))) ∧
    after - before = ∑ i, g i * v i + 1 / 2 * ∑ i, v i * ∑ j, rows i j * v j + rest

namespace Quadratic

theorem problem_hessianRow (a : Fin n → Fin n → ℝ) (linear : Fin n → ℝ) (constant : ℝ) :
    (ofReals a linear constant).problem.hessianRow =
      some fun _ i => .ok (some (BoxDescent.ofReals (a i))) := by
  have hrow : (fun (_ : Vector Extended n) (i : Fin n) => (Except.ok (some (Square.ofReals a)[i]) :
      Except (Fault Extended) (Option (Vector Extended n)))) =
      fun _ i => .ok (some (BoxDescent.ofReals (a i))) := by
    funext _ i
    rw [getElem_squareOfReals]
  exact congrArg some hrow

theorem expands_iff {x v : Fin n → ℝ} {rest : ℝ} :
    (ofReals a linear constant).problem.Expands x v rest ↔ rest = asymmetry a x v := by
  have hgradient : ∑ i, (∑ j, a i j * x j + linear i) * v i =
      ∑ i, v i * (∑ j, a i j * x j + linear i) := by
    simp only [mul_comm]
  have hadd := value_add_asymmetry a linear constant x v
  unfold Problem.Expands
  simp only [problem_objective, problem_gradient, problem_hessianRow, Except.ok.injEq, finite_inj,
    ofReals_inj, Option.some.injEq]
  constructor
  . rintro ⟨before, after, g, rows, rfl, rfl, rfl, ⟨row, rfl, hrows⟩, hchange⟩
    have hrow : rows = a := by
      funext i
      have hi := hrows i
      rw [Except.ok.injEq, Option.some.injEq, ofReals_inj] at hi
      exact hi.symm
    rw [hrow, hgradient] at hchange
    linarith
  . rintro rfl
    refine ⟨_, _, _, a, rfl, rfl, rfl, ⟨_, rfl, fun _ => rfl⟩, ?_⟩
    rw [hgradient]
    linarith

theorem asymmetry_single (i j : Fin n) :
    asymmetry a (Pi.single j 1) (Pi.single i 1) = 1 / 2 * (a j i - a i j) := by
  unfold asymmetry
  simp only [Pi.single_apply, ite_mul, one_mul, zero_mul, mul_ite, mul_one, mul_zero, Finset.sum_ite_eq',
    Finset.mem_univ, if_true]

theorem asymmetry_eq_zero_iff : (∀ x v, asymmetry a x v = 0) ↔ ∀ i j, a i j = a j i := by
  constructor
  . intro h i j
    have hsingle := h (Pi.single i 1) (Pi.single j 1)
    rw [asymmetry_single] at hsingle
    linarith
  . exact fun ha x v => asymmetry_eq_zero ha x v

theorem abs_asymmetry_le (ha : ∀ i j, |a i j - a j i| ≤ tolerance (a j i)) (x v : Fin n → ℝ) :
    |asymmetry a x v| ≤
      1 / 2 * ∑ i, |v i| * ∑ j, min (tolerance (a i j)) (tolerance (a j i)) * |x j| := by
  have hentry : ∀ i j, |a j i - a i j| ≤ min (tolerance (a i j)) (tolerance (a j i)) := by
    intro i j
    apply le_min (ha j i)
    rw [abs_sub_comm]
    exact ha i j
  have hrow : ∀ i, |∑ j, (a j i - a i j) * x j| ≤
      ∑ j, min (tolerance (a i j)) (tolerance (a j i)) * |x j| := by
    intro i
    apply (Finset.abs_sum_le_sum_abs _ _).trans
    apply Finset.sum_le_sum
    intro j _
    rw [abs_mul]
    exact mul_le_mul_of_nonneg_right (hentry i j) (abs_nonneg _)
  unfold asymmetry
  rw [abs_mul, abs_of_pos one_half_pos]
  apply mul_le_mul_of_nonneg_left _ one_half_pos.le
  apply (Finset.abs_sum_le_sum_abs _ _).trans
  apply Finset.sum_le_sum
  intro i _
  rw [abs_mul]
  exact mul_le_mul_of_nonneg_left (hrow i) (abs_nonneg _)

end Quadratic

/-- Gradient and Hessian of a quadratic that is accepted give the change of its objective up to the rest that
the asymmetry of the matrix leaves, and that rest vanishes everywhere only for a symmetric matrix. -/
theorem quadratic_expands {q : Quadratic Extended n}
    (hq : Quadratic.ofMatrix (Square.ofReals a) (ofReals linear) (.finite constant) = .ok q) :
    (∀ x v, q.problem.Expands x v (1 / 2 * ∑ i, v i * ∑ j, (a j i - a i j) * x j)) ∧
      (∀ x v : Fin n → ℝ, |1 / 2 * ∑ i, v i * ∑ j, (a j i - a i j) * x j| ≤
        1 / 2 * ∑ i, |v i| * ∑ j, (1e-8 + 1e-5 * min |a i j| |a j i|) * |x j|) ∧
      ((∀ x v, q.problem.Expands x v 0) ↔ ∀ i j, a i j = a j i) := by
  obtain ⟨ha, rfl⟩ := Quadratic.ofMatrix_eq_ok_iff.mp hq
  refine ⟨?_, ?_, ?_⟩
  . intro x v
    exact Quadratic.expands_iff.mpr rfl
  . intro x v
    have hmin : ∀ i j, min (Quadratic.tolerance (a i j)) (Quadratic.tolerance (a j i)) =
        1e-8 + 1e-5 * min |a i j| |a j i| := by
      intro i j
      unfold Quadratic.tolerance
      rw [min_add_add_left, mul_min_of_nonneg _ _ (by norm_num)]
    have hle := Quadratic.abs_asymmetry_le ha x v
    simp only [hmin] at hle
    exact hle
  . simp only [Quadratic.expands_iff, eq_comm (a := (0 : ℝ)), Quadratic.asymmetry_eq_zero_iff]

namespace Quadratic

def skewed : Fin 2 → Fin 2 → ℝ :=
  ![![200000, 100001], ![100000, 200000]]

theorem ofMatrix_skewed : ofMatrix (Square.ofReals skewed) (BoxDescent.ofReals fun _ => 0) (.finite 0) =
    .ok (ofReals skewed (fun _ => 0) 0) := by
  rw [ofMatrix_eq_ok_iff]
  refine ⟨?_, rfl⟩
  unfold skewed tolerance
  simp only [Fin.forall_fin_two]
  norm_num

theorem asymmetry_skewed : asymmetry skewed (Pi.single 0 1) (Pi.single 1 1) = 1 / 2 := by
  rw [asymmetry_single]
  unfold skewed
  norm_num

end Quadratic

theorem quadratic_expands_skewed : ∃ q : Quadratic Extended 2,
    Quadratic.ofMatrix (Square.ofReals Quadratic.skewed) (ofReals fun _ => 0) (.finite 0) = .ok q ∧
      q.problem.Expands (Pi.single 0 1) (Pi.single 1 1) (1 / 2) := by
  refine ⟨_, Quadratic.ofMatrix_skewed, ?_⟩
  rw [← Quadratic.asymmetry_skewed]
  exact (quadratic_expands Quadratic.ofMatrix_skewed).1 _ _

theorem quadratic_expands_inexactly : ∃ q : Quadratic Extended 2,
    Quadratic.ofMatrix (Square.ofReals Quadratic.skewed) (ofReals fun _ => 0) (.finite 0) = .ok q ∧
      ¬q.problem.Expands (Pi.single 0 1) (Pi.single 1 1) 0 := by
  refine ⟨_, Quadratic.ofMatrix_skewed, ?_⟩
  rw [Quadratic.expands_iff, Quadratic.asymmetry_skewed]
  norm_num

end BoxDescent

import Mathlib.LinearAlgebra.FiniteDimensional.Basic
import Mathlib.LinearAlgebra.Matrix.ToLin
import BoxDescent.Problem.Quadratic
import BoxDescent.Proofs.Selection
import BoxDescent.Proofs.Exact.Completion
import BoxDescent.Proofs.Exact.Factor
import BoxDescent.Proofs.Exact.Parabola
import BoxDescent.Proofs.Solver.Feasible
import BoxDescent.Proofs.Solver.Round

/-!
This module contains quadratics in exact arithmetic. A positive definite one is bounded below by its value
where the gradient vanishes (`value_le`).

The run of `Trough` ends although it could go on: a variable runs into its lower bound, where its multiplier
is negative (`Trough.solve_found`). The objective is so far from zero that what is left of the gradient is
negligible beside it, and the variable is not released, as the two estimates of its multiplier differ by too
much.
-/

namespace BoxDescent

open Extended

variable {n : Nat} {a : Fin n → Fin n → ℝ} {linear : Fin n → ℝ} {constant : ℝ}

theorem form_transpose (a : Fin n → Fin n → ℝ) (u v : Fin n → ℝ) :
    ∑ i, u i * ∑ j, a i j * v j = ∑ i, v i * ∑ j, a j i * u j := by
  simp only [Finset.mul_sum]
  rw [Finset.sum_comm]
  apply Finset.sum_congr rfl
  intro j _
  apply Finset.sum_congr rfl
  intro i _
  ring

structure IsPositiveDefinite (a : Fin n → Fin n → ℝ) : Prop where
  symm : ∀ i j, a i j = a j i
  pos : ∀ v : Fin n → ℝ, v ≠ 0 → 0 < ∑ i, v i * ∑ j, a i j * v j

namespace IsPositiveDefinite

theorem form_nonneg (ha : IsPositiveDefinite a) (v : Fin n → ℝ) :
    0 ≤ ∑ i, v i * ∑ j, a i j * v j := by
  by_cases hv : v = 0
  . subst hv
    simp
  . exact (ha.pos v hv).le

theorem exists_solution (ha : IsPositiveDefinite a) (w : Fin n → ℝ) :
    ∃ z : Fin n → ℝ, ∀ i, ∑ j, a i j * z j = w i := by
  have hinjective : Function.Injective (Matrix.mulVecLin (Matrix.of a)) := by
    rw [← LinearMap.ker_eq_bot, LinearMap.ker_eq_bot']
    intro v hv
    apply Classical.byContradiction
    intro hne
    have hpos := ha.pos v hne
    have hzero : ∀ i, ∑ j, a i j * v j = 0 := fun i => congrFun hv i
    simp only [hzero, mul_zero, Finset.sum_const_zero, lt_irrefl] at hpos
  obtain ⟨z, hz⟩ := LinearMap.injective_iff_surjective.mp hinjective w
  exact ⟨z, fun i => congrFun hz i⟩

end IsPositiveDefinite

namespace Quadratic

def ofReals (a : Fin n → Fin n → ℝ) (linear : Fin n → ℝ) (constant : ℝ) : Quadratic Extended n :=
  { matrix := Square.ofReals a, linear := BoxDescent.ofReals linear, constant := .finite constant }

noncomputable def tolerance (b : ℝ) : ℝ :=
  1e-8 + 1e-5 * |b|

theorem tolerance_nonneg (b : ℝ) : 0 ≤ tolerance b := by
  unfold tolerance
  positivity

theorem close_finite (b c : ℝ) : close (Extended.finite b) (.finite c) = true ↔ |b - c| ≤ tolerance c := by
  have htolerance : (1e-8 : Extended) + 1e-5 * Scalar.abs (.finite c) = .finite (tolerance c) := rfl
  unfold close
  rw [htolerance, finite_sub, abs_finite, isFinite_finite, Bool.and_true, equal_finite, Bool.or_eq_true,
    decide_eq_true_iff, decide_eq_true_iff, finite_le]
  constructor
  . rintro (hle | rfl)
    . exact hle
    . rw [sub_self, abs_zero]
      exact tolerance_nonneg b
  . exact Or.inl

theorem ofMatrix_eq_ok_iff {q : Quadratic Extended n} :
    ofMatrix (Square.ofReals a) (BoxDescent.ofReals linear) (.finite constant) = .ok q ↔
      (∀ i j, |a i j - a j i| ≤ tolerance (a j i)) ∧ q = ofReals a linear constant := by
  have hsymmetric : isSymmetric (Square.ofReals a) = true ↔ ∀ i j, |a i j - a j i| ≤ tolerance (a j i) := by
    unfold isSymmetric
    simp only [List.all_eq_true, List.mem_finRange, true_imp_iff, getElem_squareOfReals, getElem_ofReals,
      close_finite]
  unfold ofMatrix
  rw [← hsymmetric]
  split
  . next h =>
    rw [Except.ok.injEq, eq_comm]
    exact (and_iff_right h).symm
  . next h => exact ⟨nofun, fun hq => absurd hq.1 h⟩

theorem eq_ofReals {q : Quadratic Extended n}
    (hq : ofMatrix (Square.ofReals a) (BoxDescent.ofReals linear) (.finite constant) = .ok q) :
    q = ofReals a linear constant :=
  (ofMatrix_eq_ok_iff.mp hq).2

theorem ofMatrix_ofReals (ha : ∀ i j, a i j = a j i) :
    ofMatrix (Square.ofReals a) (BoxDescent.ofReals linear) (.finite constant) =
      .ok (ofReals a linear constant) := by
  rw [ofMatrix_eq_ok_iff]
  refine ⟨?_, rfl⟩
  intro i j
  rw [ha i j, sub_self, abs_zero]
  exact tolerance_nonneg _

noncomputable def value (a : Fin n → Fin n → ℝ) (linear : Fin n → ℝ) (constant : ℝ)
    (x : Fin n → ℝ) : ℝ :=
  1 / 2 * ∑ i, x i * ∑ j, a i j * x j + ∑ i, linear i * x i + constant

theorem mulVec_ofReals (x : Fin n → ℝ) :
    (Square.ofReals a).mulVec (BoxDescent.ofReals x) = BoxDescent.ofReals fun i => ∑ j, a i j * x j := by
  rw [eq_ofReals_iff]
  intro i
  unfold Square.mulVec
  rw [getElem_vectorOfFn, getElem_squareOfReals, ← sum_finRange, ← sumOver_finite]
  simp only [getElem_ofReals, finite_mul]

theorem objective_ofReals (x : Fin n → ℝ) :
    (ofReals a linear constant).objective (BoxDescent.ofReals x) =
      .finite (value a linear constant x) := by
  unfold objective ofReals value dot
  dsimp only
  rw [mulVec_ofReals, dotOver_ofReals, dotOver_ofReals, sum_finRange, sum_finRange, ofScientific_eq,
    finite_mul, finite_add, finite_add]
  norm_num

theorem gradient_ofReals (x : Fin n → ℝ) :
    (ofReals a linear constant).gradient (BoxDescent.ofReals x) =
      BoxDescent.ofReals fun i => ∑ j, a i j * x j + linear i := by
  rw [eq_ofReals_iff]
  intro i
  unfold gradient ofReals
  dsimp only
  rw [getElem_vectorOfFn, mulVec_ofReals, getElem_ofReals, getElem_ofReals, finite_add]

theorem problem_objective (a : Fin n → Fin n → ℝ) (linear : Fin n → ℝ) (constant : ℝ)
    (x : Fin n → ℝ) :
    (ofReals a linear constant).problem.objective (BoxDescent.ofReals x) =
      .ok (.finite (value a linear constant x)) :=
  congrArg Except.ok (objective_ofReals x)

theorem problem_gradient (a : Fin n → Fin n → ℝ) (linear : Fin n → ℝ) (constant : ℝ)
    (x : Fin n → ℝ) :
    (ofReals a linear constant).problem.gradient (BoxDescent.ofReals x) =
      .ok (BoxDescent.ofReals fun i => ∑ j, a i j * x j + linear i) :=
  congrArg Except.ok (gradient_ofReals x)

/-- What a matrix that is not symmetric adds to the change of the objective from `x` to `x + v`, beyond what the
gradient and the Hessian make of `v`. -/
noncomputable def asymmetry (a : Fin n → Fin n → ℝ) (x v : Fin n → ℝ) : ℝ :=
  1 / 2 * ∑ i, v i * ∑ j, (a j i - a i j) * x j

theorem asymmetry_eq_zero (ha : ∀ i j, a i j = a j i) (x v : Fin n → ℝ) : asymmetry a x v = 0 := by
  have hentry : ∀ i j, a j i - a i j = 0 := fun i j => sub_eq_zero.mpr (ha j i)
  unfold asymmetry
  simp only [hentry, zero_mul, Finset.sum_const_zero, mul_zero]

theorem value_add_asymmetry (a : Fin n → Fin n → ℝ) (linear : Fin n → ℝ) (constant : ℝ)
    (x v : Fin n → ℝ) :
    value a linear constant (x + v) = value a linear constant x +
      ∑ i, v i * (∑ j, a i j * x j + linear i) + 1 / 2 * ∑ i, v i * ∑ j, a i j * v j +
      asymmetry a x v := by
  have hform : ∑ i, (x i + v i) * ∑ j, a i j * (x j + v j) = ∑ i, x i * ∑ j, a i j * x j +
      ∑ i, v i * ∑ j, a j i * x j + ∑ i, v i * ∑ j, a i j * x j + ∑ i, v i * ∑ j, a i j * v j := by
    simp only [mul_add, add_mul, Finset.sum_add_distrib]
    rw [form_transpose a x v]
    ring
  have hlinear : ∑ i, linear i * (x i + v i) = ∑ i, linear i * x i + ∑ i, v i * linear i := by
    simp only [mul_add, Finset.sum_add_distrib, mul_comm (v _)]
  have hasymmetry : ∑ i, v i * ∑ j, (a j i - a i j) * x j =
      ∑ i, v i * ∑ j, a j i * x j - ∑ i, v i * ∑ j, a i j * x j := by
    simp only [sub_mul, Finset.sum_sub_distrib, mul_sub]
  unfold value asymmetry
  simp only [Pi.add_apply, hform, hlinear, hasymmetry, mul_add (v _), Finset.sum_add_distrib]
  ring

theorem value_add (ha : ∀ i j, a i j = a j i) (x v : Fin n → ℝ) :
    value a linear constant (x + v) = value a linear constant x +
      ∑ i, v i * (∑ j, a i j * x j + linear i) + 1 / 2 * ∑ i, v i * ∑ j, a i j * v j := by
  rw [value_add_asymmetry, asymmetry_eq_zero ha, add_zero]

theorem value_le (ha : IsPositiveDefinite a) {z : Fin n → ℝ} (hz : ∀ i, ∑ j, a i j * z j = -linear i)
    (x : Fin n → ℝ) : value a linear constant z ≤ value a linear constant x := by
  have hform := ha.form_nonneg (x - z)
  have hstationary : ∑ i, (x - z) i * (∑ j, a i j * z j + linear i) = 0 := by
    apply Finset.sum_eq_zero
    intro i _
    rw [hz, neg_add_cancel, mul_zero]
  calc value a linear constant z
      ≤ value a linear constant z + ∑ i, (x - z) i * (∑ j, a i j * z j + linear i) +
          1 / 2 * ∑ i, (x - z) i * ∑ j, a i j * (x - z) j := by
        rw [hstationary]
        linarith
    _ = value a linear constant (z + (x - z)) := (value_add ha.symm z (x - z)).symm
    _ = value a linear constant x := by
        rw [add_sub_cancel]

theorem isBoundedBelow (ha : IsPositiveDefinite a) :
    (ofReals a linear constant).problem.IsBoundedBelow := by
  obtain ⟨z, hz⟩ := ha.exists_solution fun i => -linear i
  refine ⟨value a linear constant z, ?_⟩
  intro x f hf
  rw [problem_objective, Except.ok.injEq, finite_inj] at hf
  rw [← hf]
  exact value_le ha hz x

theorem tolerates : Solver.Tolerates (fun e => n = 0 ∧ e = .fault .mismatch)
    (ofReals a linear constant).problem where
  regular := {
    objective := by
      intro x v hv
      rw [problem_objective, Except.ok.injEq] at hv
      exact Or.inr ⟨_, hv.symm⟩
    gradient := by
      intro x g hg
      rw [problem_gradient, Except.ok.injEq] at hg
      exact ⟨_, hg.symm⟩
    tolerates := ⟨nofun, nofun⟩ }
  hessian := fun _ _ => Logged.meets_ok (fun _ _ => trivial) trivial
  empty := fun hn => ⟨hn, rfl⟩

theorem isParabola {a b c m : ℝ} (hb : b = -(a * m)) (hc : c = a / 2 * (m * m)) :
    (ofReals (fun _ _ : Fin 1 => a) (fun _ => b) c).problem.IsParabola a m where
  objective := by
    intro x
    unfold Line.point
    rw [problem_objective, Except.ok.injEq, finite_inj, hb, hc]
    unfold value
    simp only [Fin.sum_univ_one]
    ring
  gradient := by
    intro x
    unfold Line.point
    rw [problem_gradient, Except.ok.injEq, ofReals_inj, hb]
    simp only [Fin.sum_univ_one]
    funext i
    ring
  hessianRow := fun _ => ⟨_, rfl⟩

end Quadratic

namespace Trough

noncomputable def matrix : Fin 2 → Fin 2 → ℝ :=
  ![![6, 1], ![1, 1 / 2]]

variable {c : ℝ}

noncomputable def objective (c : ℝ) : Quadratic Extended 2 :=
  .ofReals matrix (fun _ => 0) c

noncomputable def settings : Settings Extended :=
  { Settings.default with maxIterations := 1 }

def point (x y : ℝ) : Vector Extended 2 :=
  ofReals ![x, y]

theorem point_zero (x y : ℝ) : (point x y)[(0 : Fin 2)] = .finite x :=
  getElem_ofReals _ 0

theorem point_one (x y : ℝ) : (point x y)[(1 : Fin 2)] = .finite y :=
  getElem_ofReals _ 1

theorem eq_point_iff {v : Vector Extended 2} {x y : ℝ} :
    v = point x y ↔ v[(0 : Fin 2)] = .finite x ∧ v[(1 : Fin 2)] = .finite y := by
  unfold point
  rw [eq_ofReals_iff, Fin.forall_fin_two]
  rfl

theorem dotOver_both (x y u v : ℝ) :
    dotOver [0, 1] (point x y) (point u v) = .finite (x * u + y * v) := by
  unfold point
  rw [dotOver_ofReals]
  simp

theorem dotOver_second (x y u v : ℝ) : dotOver [1] (point x y) (point u v) = .finite (y * v) := by
  show (point x y)[(1 : Fin 2)] * (point u v)[(1 : Fin 2)] = _
  rw [point_one, point_one, finite_mul]

theorem objective_eq {x y v : ℝ} (hv : 3 * x * x + x * y + 1 / 4 * y * y + c = v) :
    (objective c).problem.objective (point x y) = .ok (.finite v) := by
  unfold objective point
  rw [Quadratic.problem_objective, Except.ok.injEq, finite_inj, ← hv]
  unfold Quadratic.value matrix
  simp only [Fin.sum_univ_two, Matrix.cons_val_zero, Matrix.cons_val_one, Matrix.cons_val_fin_one]
  ring

theorem gradient_eq {x y u v : ℝ} (hu : 6 * x + y = u) (hv : x + 1 / 2 * y = v) :
    (objective c).problem.gradient (point x y) = .ok (point u v) := by
  unfold objective
  rw [point, Quadratic.problem_gradient, Except.ok.injEq, eq_point_iff, ← hu, ← hv, getElem_ofReals,
    getElem_ofReals, finite_inj, finite_inj]
  unfold matrix
  simp [Fin.sum_univ_two]

noncomputable def box : Bounds Extended 2 :=
  { lower := #v[some (.finite (-1 / 4)), none], upper := #v[none, none] }

noncomputable def origin : Vector Extended 2 :=
  point (7 / 4) (-7 / 2)

abbrev free : Vector Bool 2 :=
  Vector.replicate 2 false

noncomputable def heading : LineSearch.Heading Extended 2 :=
  { direction := point (-7) 0, maxStep := some (.finite 100), slope := .finite (-49) }

theorem maxNorm_eq : Solver.maxNorm settings 2 (point 7 0) = .finite 700 := by
  have hnorm : norm (point 7 0) = .finite 7 := by
    show normOver [0, 1] (point 7 0) = _
    unfold normOver
    rw [dotOver_both, sqrt_finite (by norm_num), finite_inj, mul_zero, add_zero,
      Real.sqrt_mul_self (by norm_num)]
  unfold Solver.maxNorm
  rw [hnorm, ofCount_eq, pickMax_finite]
  show (100.0 : Extended) * _ = _
  rw [ofScientific_eq, finite_mul, finite_inj]
  norm_num

theorem scale_eq : LineSearch.scale (point (-7) 0) free (.finite 700) =
    { direction := point (-7) 0, norm := .finite 7, maxStep := some (.finite 100) } := by
  have hnorm : normOver (unmasked free) (point (-7) 0) = .finite 7 := by
    show normOver [0, 1] _ = _
    unfold normOver
    rw [dotOver_both, sqrt_finite (by norm_num), finite_inj, mul_zero, add_zero, neg_mul_neg,
      Real.sqrt_mul_self (by norm_num)]
  unfold LineSearch.scale
  rw [hnorm]
  dsimp only
  rw [if_neg, if_pos, finite_div (by norm_num)]
  . norm_num
  . rw [gt_iff_lt, zero_eq, finite_lt]
    norm_num
  . rw [gt_iff_lt, finite_lt]
    norm_num

theorem change_eq : LineSearch.relativeChange (point (-7) 0) origin [0, 1] = .finite 4 := by
  show Scalar.maximum (Scalar.maximum 0 (Scalar.abs (point (-7) 0)[(0 : Fin 2)] /
      Scalar.maximum (Scalar.abs (point (7 / 4) (-7 / 2))[(0 : Fin 2)]) 1))
    (Scalar.abs (point (-7) 0)[(1 : Fin 2)] /
      Scalar.maximum (Scalar.abs (point (7 / 4) (-7 / 2))[(1 : Fin 2)]) 1) = _
  rw [point_zero, point_zero, point_one, point_one]
  simp only [abs_finite, one_eq, maximum_finite, zero_eq]
  rw [finite_div (by norm_num), finite_div (by norm_num)]
  norm_num

theorem heading_leads : heading.Leads (settings.searchParameters Line.precision) (.ofBounds box) origin
    (point 7 0) (point (-7) 0) (.finite 700) := by
  have hfixed : (ActiveSet.ofBounds box).fixed = free := rfl
  constructor
  . rw [hfixed, scale_eq]
    rfl
  . rw [hfixed, scale_eq]
    rfl
  . show Extended.finite (-49) = dotOver [0, 1] (point 7 0) (point (-7) 0)
    rw [dotOver_both, finite_inj]
    norm_num
  . show ¬Extended.finite |-49| ≤ .finite (1 / 67108864)
    rw [finite_le]
    norm_num
  . show ¬Extended.finite (1 / 67108864) < .finite (-49)
    rw [finite_lt]
    norm_num
  . show ¬LineSearch.relativeChange (point (-7) 0) origin [0, 1] ≤ .finite (1 / 67108864)
    rw [change_eq, finite_le]
    norm_num

theorem reach_eq : (LineSearch.reach Line.precision (point (-7) 0) origin (.ofBounds box)
    [0, 1]).result = .ok {
      step := some (.finite (2 / 7)), blocking := some 0, x := origin
      activeSet := .ofBounds box, newlyFixed := [] } := by
  have hfirst : LineSearch.Reach.look Line.precision (point (-7) 0)
      { step := none, blocking := none, x := origin, activeSet := .ofBounds box, newlyFixed := [] }
      0 = pure {
        step := some (.finite (2 / 7)), blocking := some 0, x := origin
        activeSet := .ofBounds box, newlyFixed := [] } := by
    have hheading : LineSearch.heading (ActiveSet.ofBounds box).working Line.precision.epsilon
        (point (-7) 0)[(0 : Fin 2)] 0 = some (.lower, .finite (-1 / 4)) := by
      unfold LineSearch.heading
      rw [point_zero, if_pos]
      . rfl
      . show Extended.finite (-7) < -.finite (1 / 4503599627370496)
        rw [finite_neg, finite_lt]
        norm_num
    have hratio : (Extended.finite (-1 / 4) - origin[(0 : Fin 2)]) / (point (-7) 0)[(0 : Fin 2)] =
        .finite (2 / 7) := by
      show (Extended.finite (-1 / 4) - (point (7 / 4) (-7 / 2))[(0 : Fin 2)]) / _ = _
      rw [point_zero, point_zero, finite_sub, finite_div (by norm_num)]
      norm_num
    unfold LineSearch.Reach.look
    rw [hheading]
    dsimp only
    rw [hratio, if_neg, if_pos (show LineSearch.below (Extended.finite (2 / 7)) none = true from rfl)]
    show ¬Extended.finite (2 / 7) ≤ .finite (1 / 67108864)
    rw [finite_le]
    norm_num
  have hsecond : ∀ s : LineSearch.Reach Extended 2, s.activeSet = .ofBounds box →
      LineSearch.Reach.look Line.precision (point (-7) 0) s 1 = pure s := by
    intro s hs
    have hheading : LineSearch.heading s.activeSet.working Line.precision.epsilon
        (point (-7) 0)[(1 : Fin 2)] 1 = none := by
      rw [hs]
      unfold LineSearch.heading
      rw [show (ActiveSet.ofBounds box).working.bound 1 .lower = none from rfl,
        show (ActiveSet.ofBounds box).working.bound 1 .upper = none from rfl, ite_self, ite_self]
    unfold LineSearch.Reach.look
    rw [hheading]
  unfold LineSearch.reach
  rw [List.foldlM_cons, hfirst, pure_bind, List.foldlM_cons, hsecond _ rfl, pure_bind, List.foldlM_nil]
  rfl

noncomputable def ray (c : ℝ) : LineSearch.Ray Extended 2 :=
  { problem := (objective c).problem, parameters := settings.searchParameters Line.precision, origin := origin
    value := .finite (c + 49 / 8), direction := point (-7) 0, fixed := free
    slope := .finite (-49), minStep := .finite (1 / 4000000), reach := some (.finite (2 / 7))
    blocking := some 0, maxStep := some (.finite 100), activeSet := .ofBounds box
    newlyFixed := [] }

theorem aim_eq : (LineSearch.aim (objective c).problem (settings.searchParameters Line.precision)
    (.ofBounds box) origin (.finite (c + 49 / 8)) (point 7 0) (point (-7) 0)
    (.finite 700)).result = .ok (.inl (ray c)) := by
  have hminStep : (1e-6 : Extended) / LineSearch.relativeChange (point (-7) 0) origin [0, 1] =
      .finite (1 / 4000000) := by
    rw [change_eq, ofScientific_eq, finite_div (by norm_num)]
    norm_num
  rw [heading_leads.aim_result reach_eq]
  show (heading.ray (objective c).problem (settings.searchParameters Line.precision) free origin _
    ((1e-6 : Extended) / LineSearch.relativeChange (point (-7) 0) origin [0, 1]) _).result = _
  rw [hminStep]
  unfold LineSearch.Heading.ray
  rw [result_note_bind]
  dsimp only
  rw [if_neg]
  . rfl
  . rw [Option.any_some, decide_eq_true_eq]
    show ¬Extended.finite (2 / 7) ≤ .finite (1 / 67108864)
    rw [finite_le]
    norm_num

theorem point_ray : (ray c).point (.finite (2 / 7)) = point (-1 / 4) (-7 / 2) := by
  rw [eq_point_iff]
  constructor
  . rw [LineSearch.Ray.point_of_free rfl]
    show box.clip 0 ((point (7 / 4) (-7 / 2))[(0 : Fin 2)] +
      .finite (2 / 7) * (point (-7) 0)[(0 : Fin 2)]) = _
    have hmove : (7 / 4 + 2 / 7 * -7 : ℝ) = -1 / 4 := by norm_num
    rw [point_zero, point_zero, finite_mul, finite_add, hmove, Bounds.clip_eq]
    show (if Extended.finite (-1 / 4) < .finite (-1 / 4) then Extended.finite (-1 / 4)
      else .finite (-1 / 4)) = _
    rw [ite_self]
  . rw [LineSearch.Ray.point_of_free rfl]
    show box.clip 1 ((point (7 / 4) (-7 / 2))[(1 : Fin 2)] +
      .finite (2 / 7) * (point (-7) 0)[(1 : Fin 2)]) = _
    rw [point_one, point_one, finite_mul, finite_add, mul_zero, add_zero]
    rfl

theorem objective_result :
    (objective c).problem.objective (point (-1 / 4) (-7 / 2)) = .ok (.finite (c + 33 / 8)) := by
  apply objective_eq
  ring

theorem gradient_result :
    (objective c).problem.gradient (point (-1 / 4) (-7 / 2)) = .ok (point (-5) (-2)) := by
  apply gradient_eq
  . norm_num
  . norm_num

theorem firstTrial_step : (LineSearch.firstTrial (ray c)).step = .finite (2 / 7) := by
  show Scalar.pickMin (Extended.finite (2 / 7)) (.finite 1) = _
  rw [pickMin_finite, min_eq_left (by norm_num)]

theorem decreases_first : (ray c).Decreases (LineSearch.firstTrial (ray c)).step (.finite (c + 33 / 8)) := by
  rw [firstTrial_step]
  constructor
  . unfold LineSearch.Ray.HasValue
    rw [point_ray]
    exact objective_result
  . show _ ≤ Extended.finite (c + 49 / 8) + 1e-4 * .finite (2 / 7) * .finite (-49)
    rw [ofScientific_eq, finite_mul, finite_mul, finite_add, finite_le]
    norm_num
    linarith

theorem hasSlope_first : (ray c).HasSlope (LineSearch.firstTrial (ray c)).step (.finite 35) := by
  rw [firstTrial_step]
  refine ⟨point (-5) (-2), ?_, ?_⟩
  . rw [point_ray]
    exact gradient_result
  . show dotOver [0, 1] (point (-5) (-2)) (point (-7) 0) = _
    rw [dotOver_both, finite_inj]
    norm_num

noncomputable def result (c : ℝ) : SearchResult Extended 2 :=
  { x := point (-1 / 4) (-7 / 2), value := .finite (c + 33 / 8), step := .finite (2 / 7)
    slope := .finite (-49), status := .accepted, newlyFixed := [0], direction := point (-7) 0
    activeSet := (ActiveSet.ofBounds box).fix 0 .lower }

theorem fixBlocking_eq : ((ray c).fixBlocking (.finite (2 / 7)) (point (-1 / 4) (-7 / 2))).result =
    .ok (point (-1 / 4) (-7 / 2), (ActiveSet.ofBounds box).fix 0 .lower, [0]) := by
  have hbelow : LineSearch.below (.finite (2 / 7)) (ray c).reach = false := by
    show decide (Extended.finite (2 / 7) < .finite (2 / 7)) = false
    rw [decide_eq_false_iff_not, finite_lt]
    exact lt_irrefl _
  have hside : (if (point (-7) 0)[(0 : Fin 2)] > 0 then Side.upper else .lower) = .lower := by
    rw [point_zero, if_neg]
    rw [gt_iff_lt, zero_eq, finite_lt]
    norm_num
  have hset : (point (-1 / 4) (-7 / 2)).set (0 : Fin 2) (.finite (-1 / 4)) (0 : Fin 2).isLt =
      point (-1 / 4) (-7 / 2) := by
    rw [eq_point_iff, getElem_set, getElem_set, if_pos rfl, if_neg (by decide)]
    exact ⟨rfl, point_one _ _⟩
  unfold LineSearch.Ray.fixBlocking
  rw [show (ray c).blocking = some 0 from rfl]
  dsimp only
  rw [hbelow, if_neg Bool.false_ne_true, show (ray c).direction = point (-7) 0 from rfl, hside,
    result_note_bind]
  show Except.ok ((point (-1 / 4) (-7 / 2)).set (0 : Fin 2) (.finite (-1 / 4)) (0 : Fin 2).isLt, _, _) = _
  rw [hset]
  rfl

theorem ray_search (fuel : Nat) : ((ray c).search (fuel + 1)).result = .ok (result c) := by
  have hcurvature : Extended.finite 35 ≥ (ray c).curvatureSlope := by
    show (0.9 : Extended) * .finite (-49) ≤ _
    rw [ofScientific_eq, finite_mul, finite_le]
    norm_num
  rw [LineSearch.Ray.search_first rfl decreases_first hasSlope_first hcurvature, firstTrial_step]
  unfold LineSearch.Ray.finish
  dsimp only
  rw [point_ray, Logged.result_bind_of_ok fixBlocking_eq]
  rfl

noncomputable def task (c : ℝ) (fuel : Nat) : Solver.Task Extended 2 :=
  { problem := (objective c).problem, settings, precision := Line.precision, searchFuel := fuel
    maxNorm := Solver.maxNorm settings 2 (point 7 0) }

noncomputable def start (c : ℝ) : Solver.Iterate Extended 2 :=
  Solver.start box origin (.finite (c + 49 / 8)) (point 7 0)

theorem start_search (fuel : Nat) : ((start c).search (task c (fuel + 1))).result = .ok (result c) := by
  have hdirection : (start c).direction = point (-7) 0 := by
    have hneg : (start c).direction = ofReals fun i => -(![7, 0] : Fin 2 → ℝ) i :=
      Solver.start_direction _ _ _ _
    rw [hneg, eq_point_iff, getElem_ofReals, getElem_ofReals, finite_inj, finite_inj]
    exact ⟨rfl, neg_zero⟩
  unfold Solver.Iterate.search LineSearch.search task
  rw [hdirection, maxNorm_eq]
  show (LineSearch.aim (objective c).problem (settings.searchParameters Line.precision)
    (.ofBounds box) origin (.finite (c + 49 / 8)) (point 7 0) (point (-7) 0)
    (.finite 700) >>= _).result = _
  rw [Logged.result_bind_of_ok aim_eq]
  exact ray_search fuel

theorem steps (fuel : Nat) :
    (start c).Steps (task c (fuel + 1)) (result c) (point (-5) (-2)) (.finite 2) where
  search := start_search fuel
  status := nofun
  displacement := by
    show Except.ok (Scalar.maximum
      (Scalar.abs ((point (-1 / 4) (-7 / 2))[(0 : Fin 2)] - (point (7 / 4) (-7 / 2))[(0 : Fin 2)]) /
        Scalar.maximum (Scalar.abs (point (-1 / 4) (-7 / 2))[(0 : Fin 2)]) 1)
      (Scalar.abs ((point (-1 / 4) (-7 / 2))[(1 : Fin 2)] - (point (7 / 4) (-7 / 2))[(1 : Fin 2)]) /
        Scalar.maximum (Scalar.abs (point (-1 / 4) (-7 / 2))[(1 : Fin 2)]) 1)) = _
    rw [point_zero, point_zero, point_one, point_one]
    simp only [finite_sub, abs_finite, one_eq, maximum_finite]
    rw [finite_div (by norm_num), finite_div (by norm_num), maximum_finite]
    norm_num
  gradient := gradient_result

theorem gradientTest_eq : ((start c).progress (result c) (point (-5) (-2))).gradientTest =
    .finite (max 0 (2 / max |c + 33 / 8| 1)) := by
  have hpos : 0 < max |c + 33 / 8| 1 := lt_of_lt_of_le one_pos (le_max_right _ _)
  show Scalar.maximum 0 (Scalar.abs (point (-5) (-2))[(1 : Fin 2)] *
    Scalar.maximum (Scalar.abs (point (-7) 0)[(1 : Fin 2)]) 1 /
      Scalar.pickMax (Scalar.abs (.finite (c + 33 / 8))) 1) = _
  rw [point_one, point_one, abs_finite, abs_finite, abs_finite, one_eq, maximum_finite, pickMax_finite,
    finite_mul, finite_div hpos.ne', zero_eq, maximum_finite]
  norm_num

theorem converges (hc : 2 ^ 28 ≤ c) (fuel : Nat) (change : Extended) :
    (start c).Converges (task c fuel) (result c) (point (-5) (-2)) change := by
  -- Beside so large a value the gradient in the second variable counts for nothing.
  have hpos : 0 < max |c + 33 / 8| 1 := lt_of_lt_of_le one_pos (le_max_right _ _)
  have hsmall : ((start c).progress (result c) (point (-5) (-2))).gradientTest < Line.precision.zero := by
    rw [gradientTest_eq]
    show _ < Extended.finite (1 / 67108864)
    rw [finite_lt, max_lt_iff, div_lt_div_iff₀ hpos (by norm_num)]
    refine ⟨by norm_num, ?_⟩
    have habs := le_max_left |c + 33 / 8| 1
    rw [abs_of_pos (by linarith)] at habs ⊢
    linarith
  refine Or.inr ?_
  unfold Solver.Progress.converged
  rw [Bool.or_eq_true, decide_eq_true_eq]
  exact Or.inl hsmall

theorem direction_eq : Factor.identity.direction (point (-5) (-2)) (result c).activeSet.fixed =
    .ok (point 0 2) := by
  unfold point
  rw [Factor.direction_identity, Except.ok.injEq, ofReals_inj]
  funext i
  fin_cases i
  . rfl
  . show -(-2 : ℝ) = 2
    norm_num

theorem multiplier_eq : (result c).activeSet.multiplier (result c).x (point (-5) (-2)) 0 =
    .ok (.finite (-5)) := by
  have hupper : box.reached 0 (point (-1 / 4) (-7 / 2))[(0 : Fin 2)] .upper = false := rfl
  have hlower : box.reached 0 (point (-1 / 4) (-7 / 2))[(0 : Fin 2)] .lower = true := by
    show decide ((point (-1 / 4) (-7 / 2))[(0 : Fin 2)] ≤ .finite (-1 / 4)) = true
    rw [point_zero, decide_eq_true_eq, finite_le]
  unfold ActiveSet.multiplier
  show (if box.reached 0 (point (-1 / 4) (-7 / 2))[(0 : Fin 2)] .upper then _
    else if box.reached 0 (point (-1 / 4) (-7 / 2))[(0 : Fin 2)] .lower then _ else _) = _
  rw [hupper, hlower, if_neg Bool.false_ne_true, if_pos rfl, point_zero]

theorem evalHessianRow_eq (x : Vector Extended 2) :
    ((objective c).problem.evalHessianRow x 0).result = .ok (some (point 6 1)) := by
  unfold objective
  rfl

theorem estimate_eq : (Release.estimate (objective c).problem (result c).activeSet (result c).x
    (point (-5) (-2)) (point 0 2) 0).result =
      .ok { first := .finite (-5), change := .finite 2, secondOrder := true } := by
  have hchange : dotOver (result c).activeSet.free (point 6 1) (point 0 2) = .finite 2 := by
    show dotOver [1] _ _ = _
    rw [dotOver_second, one_mul]
  unfold Release.estimate
  rw [Logged.result_bind_of_ok (evalHessianRow_eq _)]
  dsimp only
  rw [hchange, multiplier_eq, Logged.result_bind_of_ok (Logged.result_ofExcept _), result_note_bind]
  rfl

theorem select_eq : (Release.select (objective c).problem (result c).activeSet (result c).x
    (point (-5) (-2)) (point 0 2) none).result = .ok { indices := [0], verdict := .ok ([], false) } := by
  have hkept : ({ first := .finite (-5), change := .finite 2, secondOrder := true } :
      Release.Estimate Extended).isReleased = false := by
    rw [Bool.eq_false_iff, Ne, Release.isReleased_finite rfl rfl]
    norm_num
  unfold Release.select
  show (Release.decision _ _ [0]).result = _
  rw [Release.decision_single estimate_eq (Or.inl rfl), hkept]
  rfl

noncomputable def found (c : ℝ) : Solution Extended 2 :=
  { x := point (-1 / 4) (-7 / 2), value := .finite (c + 33 / 8), status := .converged, iterations := 1
    objectiveCount := 0, gradientCount := 0, multipliers := [(0, .finite (-5))]
    history := [.finite (c + 49 / 8), .finite (c + 33 / 8)] }

theorem start_pass (hc : 2 ^ 28 ≤ c) (fuel : Nat) :
    ((start c).pass (task c (fuel + 1))).result = .ok (.inr (found c)) := by
  have hmultipliers : Solver.multipliers { (result c).activeSet with indices := [0] } (result c).x
      (point (-5) (-2)) = .ok [(0, .finite (-5))] := by
    have hmultiplier : { (result c).activeSet with indices := [0] }.multiplier (result c).x
        (point (-5) (-2)) 0 = .ok (.finite (-5)) := multiplier_eq
    show [(0 : Fin 2)].mapM (fun i => do
      let m ← { (result c).activeSet with indices := [0] }.multiplier (result c).x (point (-5) (-2)) i
      return (i, m)) = _
    rw [List.mapM_cons, hmultiplier]
    rfl
  exact Solver.pass_outcome_iff.mpr (.finish (steps fuel) (converges hc _ _) direction_eq select_eq
    objective_result hmultipliers)

theorem checkStart_box : box.checkStart origin = .ok () := by
  rw [Bounds.checkStart_eq_ok_iff]
  constructor
  . rfl
  . rw [Fin.forall_fin_two]
    constructor
    . intro side
      cases side with
      | lower =>
        show decide ((point (7 / 4) (-7 / 2))[(0 : Fin 2)] ≤ .finite (-1 / 4)) = false
        rw [point_zero, decide_eq_false_iff_not, finite_le]
        norm_num
      | upper => rfl
    . intro side
      cases side with
      | lower => rfl
      | upper => rfl

theorem runs (c : ℝ) (fuel : Nat) :
    Runs (objective c).problem settings Line.precision fuel box origin (task c fuel) (start c) := by
  refine ⟨_, _, objective_eq ?_, gradient_eq ?_ ?_, rfl, rfl⟩
  . ring
  . norm_num
  . norm_num

theorem solve_found (hc : 2 ^ 28 ≤ c) (fuel : Nat) : ∃ objectiveCount gradientCount,
    (solve (objective c).problem settings Line.precision (fuel + 1) box origin).result =
      .ok { found c with objectiveCount, gradientCount } := by
  have hbudget : (start c).iterations < (task c (fuel + 1)).settings.budget := Nat.zero_lt_one
  obtain ⟨objectiveCount, gradientCount, hsolve⟩ := solve_result checkStart_box (runs c (fuel + 1))
  refine ⟨objectiveCount, gradientCount, ?_⟩
  rw [hsolve]
  show (Solver.run (task c (fuel + 1)) (2 + 1) (start c)).result.map _ = _
  rw [Solver.run_succ hbudget, Logged.result_bind_of_ok (start_pass hc fuel)]
  rfl

theorem isFiniteFrom (c : ℝ) : (objective c).problem.IsFiniteFrom origin where
  objective := fun x v hv => Quadratic.tolerates.regular.objective x v hv
  start := by
    intro v hv
    unfold origin at hv
    rw [objective_eq rfl, Except.ok.injEq] at hv
    exact ⟨_, hv.symm⟩
  gradient := fun x g hg => Quadratic.tolerates.regular.gradient x g hg

theorem settings_valid : settings.Valid :=
  Settings.valid_of_maxIterations one_pos

noncomputable def input : Input.Start Extended :=
  { size := 2, bounds := box, x := origin }

theorem start_input : Input.start (.ofArray #[.finite (7 / 4), .finite (-7 / 2)])
    (some (.ofArray #[.finite (-1 / 4), .nan])) none = .ok input := by
  have hx : (#v[.finite (7 / 4), .finite (-7 / 2)] : Vector Extended 2) = origin :=
    eq_point_iff.mpr ⟨rfl, rfl⟩
  have hlower : Input.sideBounds 2 .lower (some (.ofArray #[.finite (-1 / 4), .nan])) = .ok box.lower := by
    unfold Input.sideBounds
    have hnan : Scalar.isFinite Extended.nan = false := rfl
    show Except.ok (#v[Extended.finite (-1 / 4), .nan].map Input.finiteBound) = _
    simp [Input.finiteBound, hnan, box]
  show (Input.sideBounds 2 .lower (some (.ofArray #[finite (-1 / 4), nan])) >>= fun lower =>
    .ok (Input.Start.mk 2 { lower, upper := Vector.replicate 2 none }
      #v[finite (7 / 4), finite (-7 / 2)])) = _
  rw [hlower, hx]
  rfl

end Trough

end BoxDescent

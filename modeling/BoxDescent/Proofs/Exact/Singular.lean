import BoxDescent.Proofs.Exact.Quadratic

/-!
This module contains what becomes of positive definite quadratics: the solver always ends, and it finds
the minimum unless an update makes the factors singular (`solve_positiveDefinite`). An update can do that
after a direction was scaled down, since the decrease divides by the slope along the scaled direction. On
the line it happens from every start beyond one, if the scale is a half (`HalfSquare.solve_result`).
-/

namespace BoxDescent

open Extended

theorem isPositiveDefinite_one {a : ℝ} (ha : 0 < a) : IsPositiveDefinite fun _ _ : Fin 1 => a where
  symm := fun _ _ => rfl
  pos := by
    intro v hv
    have hne : v 0 ≠ 0 := by
      intro hzero
      apply hv
      funext i
      rw [Subsingleton.elim i 0, hzero]
      rfl
    rw [Fin.sum_univ_one, Fin.sum_univ_one, mul_left_comm]
    exact mul_pos ha (mul_self_pos.mpr hne)

namespace HalfSquare

noncomputable def objective : Quadratic Extended 1 :=
  .ofReals (fun _ _ => 1) (fun _ => 0) 0

noncomputable def settings : Settings Extended :=
  { Settings.default with maxStep := .finite (1 / 2) }

noncomputable def precision : Precision Extended :=
  Line.precision

theorem isParabola : objective.problem.IsParabola 1 0 :=
  Quadratic.isParabola (by norm_num) (by norm_num)

theorem objective_point (x : ℝ) :
    objective.problem.objective (Line.point x) = .ok (.finite (1 / 2 * (x * x))) := by
  rw [isParabola.objective, sub_zero]

theorem gradient_point (x : ℝ) : objective.problem.gradient (Line.point x) = .ok (Line.point x) := by
  rw [isParabola.gradient, sub_zero, one_mul]

noncomputable def task (x : ℝ) (fuel : Nat) : Solver.Task Extended 1 :=
  { problem := objective.problem, settings, precision, searchFuel := fuel
    maxNorm := Solver.maxNorm settings 1 (Line.point x) }

noncomputable def start (x : ℝ) : Solver.Iterate Extended 1 :=
  Solver.start .unbounded (Line.point x) (.finite (1 / 2 * (x * x))) (Line.point x)

noncomputable def result (x : ℝ) : SearchResult Extended 1 :=
  Line.stepped .unbounded (x / 2) (1 / 2 * (x / 2 * (x / 2))) x (-(x / 2))

theorem moves (x : ℝ) : Line.Moves (start x) (result x) x x (x / 2) (-(x / 2)) :=
  ⟨rfl, rfl, rfl, rfl, rfl⟩

variable {x : ℝ} (hx : 1 ≤ x)
include hx

theorem maxNorm_eq : Solver.maxNorm settings 1 (Line.point x) = .finite (x / 2) := by
  have hmaxNorm := Line.maxNorm_eq settings x
  rw [abs_of_pos (by linarith), max_eq_left hx] at hmaxNorm
  apply hmaxNorm.trans
  show Extended.finite (1 / 2) * .finite x = _
  rw [finite_mul]
  congr 1
  ring

theorem scales : Line.Scales (-x) (-(x / 2)) (x / 2) := by
  have habs : |-x| = x := by
    rw [abs_neg, abs_of_pos (by linarith)]
  have hscales := Line.scales_down (d := -x) (m := x / 2) (by linarith) (by linarith)
  rw [habs, neg_mul, mul_div_cancel₀ _ (by linarith)] at hscales
  exact hscales

theorem start_search (fuel : Nat) : ((start x).search (task x (fuel + 1))).result = .ok (result x) := by
  have hsquare := mul_le_mul hx hx zero_le_one (by linarith)
  have hdirection : (start x).direction = Line.point (-x) := Solver.start_direction _ _ _ _
  have hmove : x + -(x / 2) = x / 2 := by ring
  have hchange : |-(x / 2)| / max |x| 1 = 1 / 2 := by
    rw [abs_neg, abs_of_pos (by linarith), abs_of_pos (by linarith), max_eq_left hx]
    field_simp
  have hsearch := Line.search_full (f := 1 / 2 * (x * x)) (g := x) hmove (objective_point (x / 2))
    (gradient_point (x / 2)) (congrArg Logged.result (Line.reach_eq _ _ _)) nofun
    (Line.clip_unbounded 0 _) (scales hx) (by linarith) (by rw [hchange]; norm_num) (by linarith)
    (by linarith) fuel
  unfold Solver.Iterate.search task
  rw [hdirection, maxNorm_eq hx]
  refine hsearch.trans ?_
  rw [Line.finish_stepped (Or.inl rfl) (Line.clip_unbounded 0 _) hmove]
  rfl

theorem displacementConverged_eq :
    (Solver.displacementConverged precision (Line.point (x / 2)) (Line.point x)).result = .ok false := by
  have hpos : 0 < max |x / 2| 1 := lt_of_lt_of_le one_pos (le_max_right _ _)
  have hmax : max |x / 2| 1 ≤ x := by
    rw [abs_of_pos (by linarith)]
    exact max_le (by linarith) hx
  have hchange : |x / 2 - x| = x / 2 := by
    rw [abs_sub_comm, abs_of_pos (by linarith)]
    ring
  rw [Solver.displacementConverged_eq (Line.displacement_point _ _), Except.ok.injEq,
    decide_eq_false_iff_not]
  show ¬Extended.finite _ < .finite (1 / 67108864)
  rw [finite_lt, not_lt, le_div_iff₀ hpos, hchange]
  linarith

theorem converged_eq :
    ((start x).progress (result x) (Line.point (x / 2))).converged (.finite (1 / 67108864)) = false := by
  have hsquare := mul_le_mul hx hx zero_le_one (by linarith)
  have hpos : 0 < max |1 / 2 * (x / 2 * (x / 2))| 1 := lt_of_lt_of_le one_pos (le_max_right _ _)
  have habs : |x / 2| = x / 2 := abs_of_pos (by linarith)
  have hscale : max |1 / 2 * (x / 2 * (x / 2))| 1 ≤ 2 * (x / 2 * max (x / 2) 1) := by
    have hleft := mul_le_mul_of_nonneg_left (le_max_left (x / 2) 1) (by linarith : 0 ≤ x / 2)
    have hright := mul_le_mul_of_nonneg_left (le_max_right (x / 2) 1) (by linarith : 0 ≤ x / 2)
    rw [abs_of_pos (by linarith)]
    exact max_le (by linarith) (by linarith)
  apply (moves x).not_converged (x / 2) rfl
  . rw [abs_neg, habs, le_div_iff₀ hpos]
    linarith
  . linarith

theorem updates (fuel : Nat) : (start x).Updates (task x (fuel + 1)) (result x) (Line.point (x / 2))
    (Line.factor 0) := by
  have hsquare := mul_le_mul hx hx zero_le_one (by linarith)
  have hzero : (task x (fuel + 1)).precision.zero = .finite (1 / 67108864) := rfl
  have hcurved := (moves x).isCurved (x / 2) (by norm_num : (0 : ℝ) ≤ 1 / 67108864) (by norm_num)
    (by linarith)
  have hvanishes : 1 + (x / 2 - x) * (x / 2 - x) / ((x / 2 - x) * (x / 2 - x)) + x * x / (x * -(x / 2)) =
      0 := by
    have hne : x ≠ 0 := by linarith
    have hne' : x / 2 - x ≠ 0 := by
      intro hzero
      linarith
    field_simp
    norm_num
  have hfactor := Line.updateFactor_eq (d := 1) (c := (x / 2 - x) * (x / 2 - x)) (g := x)
    (s := x * -(x / 2)) one_pos (by linarith) (by linarith) hvanishes.ge (1 / 67108864)
  rw [hvanishes] at hfactor
  refine ⟨start_search hx fuel, nofun, displacementConverged_eq hx,
    Problem.eval_of_gradient (gradient_point (x / 2)), converged_eq hx, hcurved, ?_⟩
  rw [(moves x).gradChange, (moves x).curvature, hzero]
  show Solver.updateFactor _ .identity Line.free _ _ (Line.point x) (.finite (x * -(x / 2))) = _
  rw [Line.identity_eq]
  exact hfactor

theorem solve_result (fuel : Nat) : (solve objective.problem settings precision (fuel + 1) .unbounded
    (Line.point x)).result = .error (.breakdown (.direction .forward 0 (.finite (-(x / 2))) 0)) := by
  have hpass := (updates hx fuel).pass_result
  rw [Solver.redirect_singular (s := { (start x).move (result x) (Line.point (x / 2)) with
    factor := Line.factor 0 }) rfl rfl Line.isUnitLower_one (fun i _ hlast => by
      rw [Subsingleton.elim i 0] at hlast
      cases hlast) (j := 0) rfl rfl] at hpass
  have hcheck : (Bounds.unbounded : Bounds Extended 1).checkStart (Line.point x) = .ok () := rfl
  have hlt : (start x).iterations < (task x (fuel + 1)).settings.budget := by
    show 0 < 200
    omega
  rw [solve_error_iff hcheck ⟨_, _, objective_point x, gradient_point x, rfl, rfl⟩]
  show (Solver.run (task x (fuel + 1)) (399 + 1) (start x)).result = _
  rw [Solver.run_succ hlt, Logged.result_bind_of_error hpass]
  rfl

noncomputable def input : Input.Start Extended :=
  { size := 1, bounds := .unbounded, x := Line.point 2 }

omit hx in
theorem start_input : Input.start (.ofArray #[.finite 2]) none none = .ok input := rfl

omit hx in
theorem checkStart_input : input.bounds.checkStart input.x = .ok () := rfl

omit hx in
theorem ofMatrix_one :
    Quadratic.ofMatrix (Square.ofReals fun _ _ : Fin 1 => 1) (ofReals fun _ => 0) (.finite 0) =
      .ok objective :=
  Quadratic.ofMatrix_ofReals fun _ _ => rfl

omit hx in
theorem settings_valid : settings.Valid :=
  Settings.valid_of_pos (by decide) (by norm_num)

end HalfSquare

/-- For a positive definite quadratic the solver always ends. It finds a solution if and only if none of
its updates leaves a zero on the diagonal of the factors, and if one does, the direction fails at the last
variable. This cannot happen after a step along a direction that was not scaled down, if the step brought
no variable to a bound. -/
theorem solve_positiveDefinite {x : Grid Extended} {lower upper : Option (Grid Extended)}
    {s : Input.Start Extended} (hstart : Input.start x lower upper = .ok s)
    (hcheck : s.bounds.checkStart s.x = .ok ()) (hfinite : ∀ i : Fin s.size, Scalar.isFinite s.x[i] = true)
    {a : Fin s.size → Fin s.size → ℝ} (ha : IsPositiveDefinite a) {linear : Fin s.size → ℝ}
    {constant : ℝ} {q : Quadratic Extended s.size}
    (hq : Quadratic.ofMatrix (Square.ofReals a) (ofReals linear) (.finite constant) = .ok q)
    {settings : Settings Extended} (hsettings : settings.Valid)
    (htolerance : settings.displacementTolerance ≠ .nan) {epsilon zero : ℝ} (hepsilon : 0 < epsilon)
    (hzero : 0 < zero) :
    ∃ enough, ∀ searchFuel, enough ≤ searchFuel →
      ((∃ solution, (solve q.problem settings { epsilon := .finite epsilon, zero := .finite zero }
          searchFuel s.bounds s.x).result = .ok solution) ↔
        0 < s.size ∧ ∀ t r f, UpdatesFactor q.problem settings
          { epsilon := .finite epsilon, zero := .finite zero } searchFuel s.bounds s.x t r f →
          ∀ i : Fin s.size, r.activeSet.fixed[i] = false → 0 < f.diag[i]) ∧
      (∀ e, (solve q.problem settings { epsilon := .finite epsilon, zero := .finite zero } searchFuel
        s.bounds s.x).result = .error e → Solver.IsSingularity s.size e) ∧
      ∀ t r f, UpdatesFactor q.problem settings { epsilon := .finite epsilon, zero := .finite zero }
        searchFuel s.bounds s.x t r f →
        r.direction = t.direction → r.activeSet.fixed = t.activeSet.fixed →
        (∀ i : Fin s.size, r.activeSet.fixed[i] = false →
          r.x[i] = t.x[i] + r.step * r.direction[i]) →
        ∀ i : Fin s.size, r.activeSet.fixed[i] = false → 0 < f.diag[i] := by
  have hb := Input.allFinite_of_start hstart
  obtain ⟨x₀, hx₀⟩ := exists_ofReals_iff.mpr hfinite
  rw [hx₀] at hcheck ⊢
  rw [Quadratic.eq_ofReals hq]
  have hobjective := Quadratic.problem_objective a linear constant x₀
  have hgradient := Quadratic.problem_gradient a linear constant x₀
  obtain ⟨enough, henough⟩ := Solver.solve_settles Quadratic.tolerates hsettings hepsilon hzero hb hcheck
    hobjective hgradient htolerance (Quadratic.isBoundedBelow ha)
  refine ⟨enough, ?_⟩
  intro searchFuel hfuel
  have hno := henough searchFuel hfuel
  refine ⟨Solver.solve_ok_iff Quadratic.tolerates hsettings hepsilon hzero hb hcheck hobjective hgradient
    hno, hno, ?_⟩
  intro t r f hupdates
  exact Solver.positive_of_along Quadratic.tolerates hsettings hepsilon hzero hb hcheck hobjective
    hgradient hupdates

namespace Bowl

noncomputable def objective : Quadratic Extended 1 :=
  .ofReals (fun _ _ => 3 / 2) (fun _ => -(3 / 2)) (3 / 4)

theorem isParabola_objective : objective.problem.IsParabola (3 / 2) 1 :=
  Quadratic.isParabola (by norm_num) (by norm_num)

theorem ofMatrix_objective : Quadratic.ofMatrix (Square.ofReals fun _ _ : Fin 1 => 3 / 2)
    (ofReals fun _ => -(3 / 2)) (.finite (3 / 4)) = .ok objective :=
  Quadratic.ofMatrix_ofReals fun _ _ => rfl

end Bowl

theorem solve_positiveDefinite_parabola :
    (∃ enough, ∀ searchFuel, enough ≤ searchFuel →
      (∃ t r, UpdatesFactor Bowl.objective.problem (Bowl.settings 3) Line.precision searchFuel
        (Line.above 0) (Line.point 3) t r (Line.factor (3 / 2))) ∧
      (∃ solution, (solve Bowl.objective.problem (Bowl.settings 3) Line.precision searchFuel (Line.above 0)
        (Line.point 3)).result = .ok solution ∧ solution.value = .finite 0) ∧
      ∀ t r f, UpdatesFactor Bowl.objective.problem (Bowl.settings 3) Line.precision searchFuel
        (Line.above 0) (Line.point 3) t r f → ∀ i : Fin 1, r.activeSet.fixed[i] = false → 0 < f.diag[i]) ∧
    ∃ enough, ∀ searchFuel, enough ≤ searchFuel →
      ((∃ solution, (solve HalfSquare.objective.problem HalfSquare.settings HalfSquare.precision
          searchFuel HalfSquare.input.bounds HalfSquare.input.x).result = .ok solution) ↔
        0 < 1 ∧ ∀ t r f, UpdatesFactor HalfSquare.objective.problem HalfSquare.settings
          HalfSquare.precision searchFuel HalfSquare.input.bounds HalfSquare.input.x t r f →
          ∀ i : Fin 1, r.activeSet.fixed[i] = false → 0 < f.diag[i]) ∧
      (∀ e, (solve HalfSquare.objective.problem HalfSquare.settings HalfSquare.precision searchFuel
        HalfSquare.input.bounds HalfSquare.input.x).result = .error e → Solver.IsSingularity 1 e) ∧
      ∀ t r f, UpdatesFactor HalfSquare.objective.problem HalfSquare.settings HalfSquare.precision
        searchFuel HalfSquare.input.bounds HalfSquare.input.x t r f →
        r.direction = t.direction → r.activeSet.fixed = t.activeSet.fixed →
        (∀ i : Fin 1, r.activeSet.fixed[i] = false → r.x[i] = t.x[i] + r.step * r.direction[i]) →
        ∀ i : Fin 1, r.activeSet.fixed[i] = false → 0 < f.diag[i] := by
  constructor
  . obtain ⟨enough, henough⟩ := solve_positiveDefinite Line.start_input Line.checkStart_above
      (Line.isFinite_point 3) (isPositiveDefinite_one (by norm_num)) Bowl.ofMatrix_objective
      (Bowl.settings_valid three_pos) nofun Line.epsilon_pos Line.zero_pos
    refine ⟨enough + 1, ?_⟩
    intro searchFuel hfuel
    obtain ⟨fuel, rfl⟩ : ∃ fuel, searchFuel = fuel + 1 := ⟨searchFuel - 1, by omega⟩
    obtain ⟨_, _, hfound⟩ := Bowl.solve_found 3 fuel Bowl.isParabola_objective le_rfl
    obtain ⟨hiff, _⟩ := henough (fuel + 1) (by omega)
    have hupdates := Bowl.second_updates 3 fuel Bowl.isParabola_objective
    exact ⟨⟨_, _, _, _, _, Bowl.runs 3 (fuel + 1) Bowl.isParabola_objective,
      Bowl.visited_second 3 fuel Bowl.isParabola_objective le_rfl, hupdates⟩, ⟨_, hfound, rfl⟩,
      (hiff.mp ⟨_, hfound⟩).2⟩
  . exact solve_positiveDefinite HalfSquare.start_input HalfSquare.checkStart_input (Line.isFinite_point 2)
      (isPositiveDefinite_one one_pos) HalfSquare.ofMatrix_one HalfSquare.settings_valid nofun
      Line.epsilon_pos Line.zero_pos

theorem solve_fails_halfSquare :
    Input.start (.ofArray #[.finite 2]) none none = .ok HalfSquare.input ∧
      HalfSquare.input.bounds.checkStart HalfSquare.input.x = .ok () ∧
      IsPositiveDefinite (fun _ _ : Fin 1 => (1 : ℝ)) ∧
      Quadratic.ofMatrix (Square.ofReals fun _ _ : Fin 1 => 1) (ofReals fun _ => 0) (.finite 0) =
        .ok HalfSquare.objective ∧
      HalfSquare.settings.Valid ∧
      ∀ searchFuel, 0 < searchFuel →
        (solve HalfSquare.objective.problem HalfSquare.settings HalfSquare.precision searchFuel
          HalfSquare.input.bounds HalfSquare.input.x).result =
          .error (.breakdown (.direction .forward 0 (.finite (-1)) (.finite 0))) := by
  refine ⟨HalfSquare.start_input, HalfSquare.checkStart_input, isPositiveDefinite_one one_pos,
    HalfSquare.ofMatrix_one, HalfSquare.settings_valid, ?_⟩
  intro searchFuel hfuel
  obtain ⟨fuel, rfl⟩ := Nat.exists_eq_succ_of_ne_zero hfuel.ne'
  have hhalf : -((2 : ℝ) / 2) = -1 := by norm_num
  have hresult := HalfSquare.solve_result one_le_two fuel
  rw [hhalf] at hresult
  exact hresult

end BoxDescent

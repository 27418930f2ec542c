import BoxDescent.Proofs.Exact.Cliff
import BoxDescent.Proofs.Exact.Halting

/-!
This module contains which searches and runs end in exact arithmetic (`solve_finishes`). A search from an
undefined value interpolates an undefined step at once. No comparison with it ever holds, so it is tried
over and over (`LineSearch.Ray.search_endless`), and a run that starts where the objective is undefined may
never end (`solve_endless`).
-/

namespace BoxDescent

open Extended

variable {n : Nat}

namespace LineSearch

section Interpolation

variable (f₀ slope step f previous previousValue : Extended)

theorem shorten_nan : shorten step .nan = .nan := by
  unfold shorten Scalar.pickMin Scalar.pickMax
  rw [if_neg not_lt_nan, if_neg not_nan_lt]

theorem quadraticMinimiser_nan_value : quadraticMinimiser .nan slope step f = .nan := by
  unfold quadraticMinimiser
  rw [sub_nan, nan_div, nan_sub, div_nan]

theorem quadraticMinimiser_nan_step : quadraticMinimiser f₀ slope .nan f = .nan := by
  unfold quadraticMinimiser
  rw [div_nan, nan_sub, div_nan]

theorem cubicMinimiser_nan_step :
    cubicMinimiser f₀ slope .nan f previous previousValue = .nan := by
  have hequal : Scalar.equal Extended.nan 0 = false := by
    unfold Scalar.equal
    rw [decide_eq_false (not_nan_le (a := 0)), Bool.false_and]
  unfold cubicMinimiser
  simp only [nan_sub, div_nan, hequal, Bool.false_eq_true, ↓reduceIte, mul_nan]

end Interpolation

variable {r : Ray Extended n}

theorem Ray.checkFeasible_nan (f : Extended) : (r.checkFeasible .nan f).result = .ok () := by
  unfold Ray.checkFeasible
  split
  . rfl
  . rw [if_neg not_lt_nan]
    rfl

theorem Trial.shorter_of_value (hvalue : r.value = .nan) {t : Trial Extended} (hcount : t.count = 0)
    (f : Extended) : (t.shorter r f).step = .nan := by
  unfold Trial.shorter
  dsimp only
  rw [if_pos hcount, hvalue, quadraticMinimiser_nan_value, shorten_nan]

theorem Trial.shorter_of_step {t : Trial Extended} (hstep : t.step = .nan) (f : Extended) :
    (t.shorter r f).step = .nan := by
  unfold Trial.shorter
  dsimp only
  rw [hstep, quadraticMinimiser_nan_step, cubicMinimiser_nan_step, ite_self, shorten_nan]

theorem Trial.advance_of_shorter {t : Trial Extended} {f : ℝ} (hfails : ¬.finite f ≤ r.threshold t.step)
    (hmin : ¬t.step < r.minStep) (hstep : (t.shorter r (.finite f)).step = .nan) :
    (t.advance r (.finite f)).result = .ok (.inl (.trial (t.shorter r (.finite f)))) := by
  unfold Trial.advance
  rw [isFinite_finite, if_neg (by decide), result_note_bind, if_neg hfails, if_neg hmin]
  dsimp only
  rw [hstep, Logged.result_bind_of_ok (Ray.checkFeasible_nan _), result_note_bind]
  rfl

theorem Trial.advance_nan {t : Trial Extended} (hstep : t.step = .nan) (v : Extended) :
    ∃ t', (t.advance r v).result = .ok (.inl (.trial t')) ∧ t'.step = .nan := by
  cases hfinite : Scalar.isFinite v with
  | true =>
    obtain ⟨f, rfl⟩ := isFinite_iff.mp hfinite
    have hshorter := Trial.shorter_of_step (r := r) hstep (.finite f)
    refine ⟨_, Trial.advance_of_shorter ?_ ?_ hshorter, hshorter⟩
    . rw [hstep, Ray.threshold_nan]
      exact not_le_nan
    . rw [hstep]
      exact not_nan_lt
  | false =>
    refine ⟨{ t with step := t.step * 0.5, first := .unusable }, ?_, ?_⟩
    . unfold Trial.advance
      rw [hfinite, hstep, nan_mul, if_pos (by decide)]
      dsimp only
      rw [if_neg not_nan_le, result_note_bind]
      rfl
    . dsimp only
      rw [hstep, nan_mul]

theorem runStages_endless {v : Extended} (hv : r.HasValue .nan v) (fuel : Nat) :
    ∀ t : Trial Extended, t.step = .nan →
      (runStages r fuel (.trial t)).result = .error .outOfFuel := by
  induction fuel with
  | zero => exact fun _ _ => rfl
  | succ fuel ih =>
    intro t hstep
    obtain ⟨t', hadvance, hstep'⟩ := Trial.advance_nan (r := r) hstep v
    have hvalue : r.HasValue (Stage.trial t).step v := by
      show r.HasValue t.step v
      rw [hstep]
      exact hv
    rw [runStages_of_next hvalue hadvance]
    exact ih t' hstep'

theorem Ray.search_endless (hvalue : r.value = .nan) {f : ℝ} (hf : r.HasValue (firstTrial r).step (.finite f))
    (hmin : ¬(firstTrial r).step < r.minStep) {v : Extended} (hv : r.HasValue .nan v) (fuel : Nat) :
    (r.search fuel).result = .error .outOfFuel := by
  have hstages : (runStages r fuel (.trial (firstTrial r))).result = .error .outOfFuel := by
    cases fuel with
    | zero => rfl
    | succ fuel =>
      have hfirst : r.HasValue (Stage.trial (firstTrial r)).step (.finite f) := hf
      have hshorter := Trial.shorter_of_value hvalue (t := firstTrial r) rfl (.finite f)
      have hfails : ¬.finite f ≤ r.threshold (firstTrial r).step := by
        unfold Ray.threshold
        rw [hvalue, nan_add]
        exact not_le_nan
      rw [runStages_of_next hfirst (Trial.advance_of_shorter hfails hmin hshorter)]
      exact runStages_endless hv fuel _ hshorter
  unfold Ray.search
  rw [result_note_bind, Logged.result_bind_of_error hstages]

end LineSearch

/-- A search ends from every value that is finite or infinitely high, whatever the objective and its
gradient answer. So does a run whose searches all start from such values; and they do if the first one does
and the objective is tame. -/
theorem solve_finishes {parameters : LineSearch.Parameters Extended} (hparameters : parameters.Suffice)
    {settings : Settings Extended} (hsettings : settings.Valid)
    (htolerance : settings.displacementTolerance ≠ .nan) (hmaxStep : ∃ m, settings.maxStep = .finite m)
    {epsilon zero : ℝ} (hepsilon : 0 < epsilon) (hzero : 0 < zero) :
    (∀ (n : Nat) (problem : Problem Extended n) (a : ActiveSet Extended n) (x g p : Fin n → ℝ)
        (f : Extended) (m : ℝ), (f = .posInf ∨ ∃ f₀, f = .finite f₀) → 0 ≤ m → Finishes fun fuel =>
          LineSearch.search fuel problem parameters a (ofReals x) f (ofReals g) (ofReals p) (.finite m)) ∧
    ∀ (x : Grid Extended) (lower upper : Option (Grid Extended)) (s : Input.Start Extended),
      Input.start x lower upper = .ok s → (∀ i : Fin s.size, Scalar.isFinite s.x[i] = true) →
      ∀ problem : Problem Extended s.size, (∀ g, problem.gradient s.x = .ok g → ∃ w, g = ofReals w) →
        ((∀ searchFuel t, Searches problem settings
            { epsilon := .finite epsilon, zero := .finite zero } searchFuel s.bounds s.x t →
            t.value = .posInf ∨ ∃ f, t.value = .finite f) →
          Finishes fun searchFuel => solve problem settings
            { epsilon := .finite epsilon, zero := .finite zero } searchFuel s.bounds s.x) ∧
        (s.bounds.checkStart s.x = .ok () → problem.IsTame →
          (∀ v, problem.objective s.x = .ok v → v = .posInf ∨ ∃ f, v = .finite f) →
          ∀ searchFuel t, Searches problem settings
            { epsilon := .finite epsilon, zero := .finite zero } searchFuel s.bounds s.x t →
            t.value = .posInf ∨ ∃ f, t.value = .finite f) := by
  constructor
  . intro n problem a x g p f m hf hm
    obtain ⟨_, _, _, _, hsettles⟩ := LineSearch.search_settles_of_limit problem x p hparameters
      hm (finiteOn_ofReals a.fixed g) hf
    exact finishes_of_settles hsettles
  . intro x lower upper s hstart hfinite problem hgradient
    have hb := Input.allFinite_of_start hstart
    obtain ⟨x₀, hx₀⟩ := exists_ofReals_iff.mpr hfinite
    rw [hx₀] at hgradient ⊢
    constructor
    . exact Solver.finishes_of_values hsettings htolerance hmaxStep hepsilon hzero hb hgradient
    . intro hcheck htame hvalue searchFuel t ht
      exact Solver.values_of_isTame hsettings htolerance hmaxStep hepsilon hzero hb hgradient hcheck htame
        hvalue ht

theorem Problem.IsParabola.isTame {p : Problem Extended 1} {a m : ℝ} (hp : p.IsParabola a m) :
    p.IsTame where
  bottomed := by
    intro x hx
    rw [Line.eq_point, hp.objective] at hx
    cases hx
  defined := by
    apply Or.inl
    intro x hx
    rw [Line.eq_point, hp.objective] at hx
    cases hx

theorem solve_finishes_bowl :
    (Finishes fun fuel => LineSearch.search fuel (Cliff.problem .negInf .nan) Cliff.parameters
      (.ofBounds .unbounded) (ofReals fun _ : Fin 1 => 0) .posInf (ofReals fun _ => 1) (ofReals fun _ => -1)
      (.finite 2)) ∧
    Finishes fun searchFuel => solve Bowl.problem (Bowl.settings 3) Line.precision searchFuel
      (Line.above 0) (Line.point 3) := by
  have hparameters : Cliff.parameters.Suffice :=
    ⟨⟨_, _, _, Cliff.parameters_arePositive⟩, ⟨_, rfl, by norm_num⟩, nofun⟩
  have hfinishes := solve_finishes hparameters (Bowl.settings_valid three_pos) nofun ⟨_, rfl⟩
    Line.epsilon_pos Line.zero_pos
  have hproblem := Bowl.isParabola.isFiniteFrom 3
  obtain ⟨hrun, hvalues⟩ := hfinishes.2 _ _ _ _ Line.start_input (Line.isFinite_point 3) Bowl.problem
    fun g hg => hproblem.gradient (fun _ => 3) g hg
  exact ⟨hfinishes.1 1 _ _ _ _ _ _ _ (Or.inl rfl) two_pos.le,
    hrun (hvalues Line.checkStart_above Bowl.isParabola.isTame fun v hv => Or.inr (hproblem.start v hv))⟩

namespace Pole

noncomputable def problem : Problem Extended 1 :=
  { objective := fun x =>
      .ok ((x[(0 : Fin 1)] - 1) * (x[(0 : Fin 1)] - 1) * x[(0 : Fin 1)] / x[(0 : Fin 1)])
    gradient := fun x => .ok #v[.finite 2 * (x[(0 : Fin 1)] - 1)] }

noncomputable def input : Input.Start Extended :=
  { size := 1, bounds := .unbounded, x := Line.point 0 }

theorem start_input : Input.start (.ofArray #[.finite 0]) none none = .ok input := rfl

theorem checkStart_input : input.bounds.checkStart input.x = .ok () := rfl

theorem objective_zero : problem.objective (Line.point 0) = .ok .nan := by
  have hinfinity : infinity ((0 - 1) * (0 - 1) * 0) = .nan := by
    unfold infinity
    norm_num
  unfold problem
  dsimp only
  rw [Line.getElem_point, one_eq, finite_sub, finite_mul, finite_mul, finite_div_zero, hinfinity]

theorem objective_point {x : ℝ} (hx : x ≠ 0) :
    problem.objective (Line.point x) = .ok (.finite ((x - 1) * (x - 1))) := by
  unfold problem
  dsimp only
  rw [Line.getElem_point, one_eq, finite_sub, finite_mul, finite_mul, finite_div hx,
    mul_div_cancel_right₀ _ hx]

theorem gradient_point (x : ℝ) : problem.gradient (Line.point x) = .ok (Line.point (2 * (x - 1))) := by
  unfold problem
  dsimp only
  rw [Line.getElem_point, one_eq, finite_sub, finite_mul]
  rfl

noncomputable def ray : LineSearch.Ray Extended 1 :=
  Line.ray problem (Settings.searchParameters .default Line.precision) 0 .nan (-2) 2 200 (1 / 1000000)

theorem aim_eq : (LineSearch.aim problem (Settings.searchParameters .default Line.precision)
    (.ofBounds .unbounded) (Line.point 0) .nan (Line.point (-2)) (Line.point 2) (.finite 200)).result =
      .ok (.inl ray) := by
  apply Line.aim_eq Line.parameters_zero Line.zero_pos Line.parameters_tolerance two_ne_zero
  . norm_num
  . norm_num
  . norm_num

theorem search_ray (fuel : Nat) : (ray.search fuel).result = .error .outOfFuel := by
  have hstep : (LineSearch.firstTrial ray).step = .finite 1 := rfl
  have hdefined : ∃ v, ray.HasValue .nan v := ⟨_, rfl⟩
  obtain ⟨v, hv⟩ := hdefined
  apply LineSearch.Ray.search_endless (f := 1) rfl _ _ hv
  . rw [hstep]
    apply Line.hasValue_ray
    rw [objective_point (by norm_num)]
    norm_num
  . rw [hstep]
    show ¬Extended.finite 1 < .finite (1 / 1000000 / (|2| / max |0| 1))
    rw [finite_lt]
    norm_num

theorem search_outOfFuel (fuel : Nat) : (LineSearch.search fuel problem
    (Settings.searchParameters .default Line.precision) (.ofBounds .unbounded) (Line.point 0) .nan
    (Line.point (-2)) (Line.point 2) (.finite 200)).result = .error .outOfFuel := by
  unfold LineSearch.search
  rw [Logged.result_bind_of_ok aim_eq]
  exact search_ray fuel

theorem solve_result (searchFuel : Nat) :
    (solve problem .default Line.precision searchFuel .unbounded (Line.point 0)).result =
      .error .outOfFuel := by
  have hgradient : problem.gradient (Line.point 0) = .ok (Line.point (-2)) := by
    rw [gradient_point]
    norm_num
  have hdirection : (Vector.ofFn fun i : Fin 1 => -(Line.point (-2))[i]) = Line.point (- -2) :=
    Solver.start_direction .unbounded (Line.point 0) .nan _
  have hmaxNorm : Solver.maxNorm Settings.default 1 (Line.point (-2)) = .finite 200 := by
    rw [Line.default_maxNorm]
    norm_num
  have hcheck : (Bounds.unbounded : Bounds Extended 1).checkStart (Line.point 0) = .ok () :=
    checkStart_input
  rw [solve_error_iff hcheck ⟨_, _, objective_zero, hgradient, rfl, rfl⟩]
  have hbudget : 0 < (Settings.default : Settings Extended).budget := by
    show 0 < 200
    omega
  show (Solver.run _ (399 + 1) _).result = _
  rw [Solver.run_succ hbudget]
  apply Logged.result_bind_of_error
  unfold Solver.Iterate.pass
  rw [result_note_bind]
  apply Logged.result_bind_of_error
  unfold Solver.Iterate.search
  show (LineSearch.search searchFuel problem (Settings.searchParameters .default Line.precision)
    (.ofBounds .unbounded) (Line.point 0) .nan (Line.point (-2)) (Vector.ofFn fun i : Fin 1 =>
      -(Line.point (-2))[i]) (Solver.maxNorm .default 1 (Line.point (-2)))).result = _
  rw [hmaxNorm, hdirection, neg_neg]
  exact search_outOfFuel searchFuel

end Pole

theorem solve_endless :
    Input.start (.ofArray #[.finite 0]) none none = .ok Pole.input ∧
      Pole.input.bounds.checkStart Pole.input.x = .ok () ∧ (Settings.default : Settings Extended).Valid ∧
      Pole.problem.objective Pole.input.x = .ok .nan ∧
      (∀ x g, Pole.problem.gradient (ofReals x) = .ok g → ∃ w, g = ofReals w) ∧
      (∀ fuel, (LineSearch.search fuel Pole.problem (Settings.searchParameters .default Line.precision)
        (.ofBounds .unbounded) (ofReals fun _ : Fin 1 => 0) .nan (ofReals fun _ => -2) (ofReals fun _ => 2)
        (.finite 200)).result = .error .outOfFuel) ∧
      ∀ searchFuel, (solve Pole.problem .default Line.precision searchFuel Pole.input.bounds
        Pole.input.x).result = .error .outOfFuel := by
  refine ⟨Pole.start_input, Pole.checkStart_input, Settings.default_valid, Pole.objective_zero,
    ?_, Pole.search_outOfFuel, Pole.solve_result⟩
  intro x g hg
  rw [Line.eq_point, Pole.gradient_point] at hg
  cases hg
  exact ⟨_, rfl⟩

end BoxDescent

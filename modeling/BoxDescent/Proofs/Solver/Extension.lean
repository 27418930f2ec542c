import BoxDescent.Proofs.Solver.Budget
import BoxDescent.Proofs.Exact.Undefined

/-!
This module contains how a run goes on when it is given more iterations. A round does not look at how many
iterations are allowed, so both runs make the same rounds until the shorter one has used up its own
(`run_extend`). An answer or an error before that is the answer or the error of both (`solve_extends`). The
longer run need not end: in the one of `Punctured` the first search accepts an undefined value, past an
undefined slope, and the next search is endless (`solve_does_not_extend`).
-/

namespace BoxDescent

variable {α : Type} [Scalar α] {n : Nat}

def Settings.allow (settings : Settings α) (more : Int) : Settings α :=
  { settings with maxIterations := more }

namespace Solver

def Task.allow (t : Task α n) (more : Int) : Task α n :=
  { t with settings := t.settings.allow more }

variable {t : Task α n} {more : Int} {s₀ s s' : Iterate α n} {rs : List (SearchResult α n)}

theorem pass_allow (t : Task α n) (more : Int) (s : Iterate α n) : s.pass (t.allow more) = s.pass t := rfl

theorem run_exhausted (h : ¬s.iterations < t.settings.budget) (fuel : Nat) :
    (run t fuel s).result = s.solution .budgetExhausted := by
  rw [run_of_not_lt h, result_note_bind]
  rfl

theorem converged_of_pass {solution : Solution α n} (h : (s.pass t).result = .ok (.inr solution)) :
    solution.status = .converged := by
  cases pass_outcome h with
  | finish => rfl

theorem run_grows {found : Solution α n} (hlt : s₀.iterations < t.settings.budget) {fuel : Nat}
    (h : (run t fuel s₀).result = .ok found) :
    s₀.history <+: found.history ∧ s₀.iterations < found.iterations := by
  have hmeets : (run t fuel s₀).Meets (fun _ => True) (fun _ => True) fun found =>
      s₀.history <+: found.history ∧ s₀.iterations < found.iterations := by
    apply run_meets (I := fun s => s₀.history <+: s.history ∧ s₀.iterations ≤ s.iterations)
      (fun _ => trivial) trivial
    . intro s hs _
      apply (Logged.meets_self (s.pass t)).imp
      intro next hnext
      cases next with
      | inl s' =>
        obtain ⟨r, hsearch⟩ := search_of_pass hnext
        by_cases hstatus : r.status = .zeroStep
        . obtain ⟨hiterations, hhistory, _⟩ := (pass_outcome hnext).of_zeroStep hsearch hstatus
          dsimp only
          rw [hiterations, hhistory]
          exact hs
        . obtain ⟨hiterations, hhistory⟩ := (pass_outcome hnext).of_counted hsearch hstatus
          dsimp only
          rw [hiterations, hhistory]
          exact ⟨hs.1.trans (List.prefix_append _ _), Nat.le_succ_of_le hs.2⟩
      | inr solution =>
        cases pass_outcome hnext with
        | finish => exact ⟨hs.1.trans (List.prefix_append _ _), Nat.lt_succ_of_le hs.2⟩
    . intro s hs hend
      apply Logged.meets_ofExcept
      . exact fun _ _ => trivial
      . intro solution hsolution
        obtain ⟨ms, _, rfl⟩ := solution_eq hsolution
        exact ⟨hs.1, Nat.lt_of_lt_of_le hlt (Nat.le_of_not_lt hend)⟩
    . exact ⟨List.prefix_rfl, Nat.le_refl _⟩
  exact hmeets.value found h

variable [Scalar.Lawful α] {b : Bounds α n}

theorem run_extend (hc : b.crossed = false) (hb : b.AllFinite) (hp : t.precision.Positive)
    (h₀ : s₀.Keeps b) (hmore : t.settings.budget ≤ (t.allow more).settings.budget) (fuel : Nat) :
    ∀ (rs : List (SearchResult α n)) (s : Iterate α n) (fuel' : Nat), Rounds t s₀ rs s →
      (n + 1) * t.settings.budget ≤ rs.length + fuel → fuel ≤ fuel' →
      (run (t.allow more) fuel' s = run t fuel s ∧
        ∀ solution, (run t fuel s).result = .ok solution → solution.status = .converged) ∨
      ∃ rs' s' fuel'', Rounds t s₀ rs' s' ∧ ¬s'.iterations < t.settings.budget ∧
        (run t fuel s).result = s'.solution .budgetExhausted ∧
        (run (t.allow more) fuel' s).result = (run (t.allow more) fuel'' s').result := by
  induction fuel with
  | zero =>
    intro rs s fuel' hrounds hfuel _
    by_cases hlt : s.iterations < t.settings.budget
    . have hlength := hrounds.length_lt hc hb hp h₀ hlt
      omega
    . exact Or.inr ⟨rs, s, fuel', hrounds, hlt, run_exhausted hlt 0, rfl⟩
  | succ fuel ih =>
    intro rs s fuel' hrounds hfuel hle
    by_cases hlt : s.iterations < t.settings.budget
    . obtain ⟨fuel', rfl⟩ : ∃ k, fuel' = k + 1 := Nat.exists_eq_add_one.mpr (by omega)
      rw [run_succ hlt, run_succ (Nat.lt_of_lt_of_le hlt hmore), pass_allow]
      cases hpass : (s.pass t).result with
      | error e =>
        rw [Logged.bind_eq_of_error hpass, Logged.bind_eq_of_error hpass]
        exact Or.inl ⟨rfl, nofun⟩
      | ok next =>
        rw [Logged.bind_eq_of_ok hpass, Logged.bind_eq_of_ok hpass]
        cases next with
        | inr solution =>
          refine Or.inl ⟨rfl, ?_⟩
          intro found hfound
          cases hfound
          exact converged_of_pass hpass
        | inl s' =>
          obtain ⟨r, hsearch⟩ := search_of_pass hpass
          dsimp only
          cases ih (rs ++ [r]) s' fuel' (hrounds.pass hlt hsearch hpass) (by
            rw [List.length_append, List.length_singleton]
            omega) (by omega) with
          | inl hsame =>
            rw [hsame.1]
            exact Or.inl ⟨rfl, hsame.2⟩
          | inr hgoes => exact Or.inr hgoes
    . exact Or.inr ⟨rs, s, fuel', hrounds, hlt, run_exhausted hlt _, rfl⟩

end Solver

section Solve

variable {problem : Problem α n} {settings : Settings α} {precision : Precision α} {searchFuel : Nat}
  {b : Bounds α n} {x : Vector α n} {more : Int}

theorem solve_refused {refusal : Refusal α} (h : b.checkStart x = .error refusal) :
    solve problem settings precision searchFuel b x = .fail (.refusal refusal) := by
  unfold solve
  rw [h]
  rfl

theorem solve_allow_of_run (h : ∀ t s₀, Runs problem settings precision searchFuel b x t s₀ →
    Solver.run (t.allow more) ((n + 1) * (settings.allow more).budget) s₀ =
      Solver.run t ((n + 1) * settings.budget) s₀) :
    solve problem (settings.allow more) precision searchFuel b x =
      solve problem settings precision searchFuel b x := by
  unfold solve
  apply Logged.bind_congr_of_ok
  intro _ _
  dsimp only
  congr 2
  apply Logged.bind_congr_of_ok
  intro value hvalue
  apply Logged.bind_congr_of_ok (x := Solver.startGradient problem settings x value)
  intro grad hgrad
  have hgradient := (Solver.startGradient_eq problem.tolerates_true (fun _ => trivial) settings x
    value).value grad hgrad
  exact h _ _ ⟨value, grad, Problem.objective_of_eval hvalue, hgradient, rfl, rfl⟩

theorem Runs.allow {t : Solver.Task α n} {s₀ : Solver.Iterate α n}
    (h : Runs problem settings precision searchFuel b x t s₀) :
    Runs problem (settings.allow more) precision searchFuel b x (t.allow more) s₀ := by
  obtain ⟨value, grad, hvalue, hgrad, rfl, rfl⟩ := h
  exact ⟨value, grad, hvalue, hgrad, rfl, rfl⟩

variable [Scalar.Lawful α] (hb : b.AllFinite) (hcheck : b.checkStart x = .ok ()) (hp : precision.Positive)
  (hmore : settings.budget < (settings.allow more).budget)
include hb hcheck hp hmore

theorem Runs.extend {t : Solver.Task α n} {s₀ : Solver.Iterate α n}
    (h : Runs problem settings precision searchFuel b x t s₀) :
    (Solver.run (t.allow more) ((n + 1) * (settings.allow more).budget) s₀ =
        Solver.run t ((n + 1) * settings.budget) s₀ ∧
      ∀ found, (Solver.run t ((n + 1) * settings.budget) s₀).result = .ok found →
        found.status = .converged) ∨
      ∃ s found fuel, s.solution .budgetExhausted = .ok found ∧ s.iterations = settings.budget ∧
        (Solver.run t ((n + 1) * settings.budget) s₀).result = .ok found ∧
        (Solver.run (t.allow more) ((n + 1) * (settings.allow more).budget) s₀).result =
          (Solver.run (t.allow more) fuel s).result := by
  have hc := (Bounds.checkStart_eq_ok_iff.mp hcheck).1
  have h₀ := h.keeps hb hcheck
  obtain ⟨value, grad, _, _, rfl, rfl⟩ := h
  have hfuel : (n + 1) * settings.budget ≤ (n + 1) * (settings.allow more).budget :=
    Nat.mul_le_mul_left _ hmore.le
  have hextend := Solver.run_extend (t := {
    problem, settings, precision, searchFuel, maxNorm := Solver.maxNorm settings n grad }) hc hb hp h₀
    hmore.le ((n + 1) * settings.budget) [] _ _ .start (Nat.le_add_left _ _) hfuel
  apply hextend.imp_right
  rintro ⟨rs, s, fuel, hrounds, hend, hshort, hlong⟩
  have hsolution := Solver.solution_meets (L := fun (_ : Event α n) => True) (E := fun _ => False) hb
    (hrounds.keeps hc hb hp h₀).holds .budgetExhausted
  cases hfound : s.solution .budgetExhausted with
  | error e => exact (hsolution.error e hfound).elim
  | ok found =>
    refine ⟨s, found, fuel, hfound, ?_, hshort.trans hfound, hlong⟩
    exact Nat.le_antisymm (hrounds.iterations_le (Nat.zero_le _)) (Nat.le_of_not_lt hend)

theorem solve_allow (h : ∀ found, (solve problem settings precision searchFuel b x).result = .ok found →
    found.status = .converged) :
    solve problem (settings.allow more) precision searchFuel b x =
      solve problem settings precision searchFuel b x := by
  apply solve_allow_of_run
  intro t s₀ hruns
  cases hruns.extend hb hcheck hp hmore with
  | inl hsame => exact hsame.1
  | inr hgoes =>
    obtain ⟨s, found, fuel, hfound, _, hrun, _⟩ := hgoes
    obtain ⟨_, _, hsolve⟩ := solve_result hcheck hruns
    rw [hrun] at hsolve
    have hstatus := h _ hsolve
    obtain ⟨_, _, rfl⟩ := Solver.solution_eq hfound
    cases hstatus

theorem solve_allow_exhausted {found found' : Solution α n}
    (h : (solve problem settings precision searchFuel b x).result = .ok found)
    (hstatus : found.status = .budgetExhausted)
    (h' : (solve problem (settings.allow more) precision searchFuel b x).result = .ok found') :
    settings.budget < found'.iterations ∧ found.history <+: found'.history := by
  obtain ⟨t, s₀, shorter, hruns, hshorter, _, _, rfl⟩ := solve_found h
  have hallowed : Runs problem (settings.allow more) precision searchFuel b x (t.allow more) s₀ :=
    hruns.allow
  obtain ⟨_, _, hsolve⟩ := solve_result hcheck hallowed
  cases hruns.extend hb hcheck hp hmore with
  | inl hsame =>
    have hconverged := hsame.2 _ hshorter
    rw [hstatus] at hconverged
    cases hconverged
  | inr hgoes =>
    obtain ⟨s, shorter', fuel, hfound, hiterations, hrun, hlonger⟩ := hgoes
    rw [hshorter, Except.ok.injEq] at hrun
    subst hrun
    rw [hlonger, h'] at hsolve
    cases hrun' : (Solver.run (t.allow more) fuel s).result with
    | error e =>
      rw [hrun'] at hsolve
      cases hsolve
    | ok longer =>
      rw [hrun'] at hsolve
      cases hsolve
      have hbudget : (t.allow more).settings.budget = (settings.allow more).budget := by
        obtain ⟨_, _, _, _, rfl, _⟩ := hruns
        rfl
      obtain ⟨_, _, rfl⟩ := Solver.solution_eq hfound
      have hgrows := Solver.run_grows (by rw [hiterations, hbudget]; exact hmore) hrun'
      rw [hiterations] at hgrows
      exact ⟨hgrows.2, hgrows.1⟩

end Solve

/-- A run that is allowed more iterations has the same solution if that has converged, and the same error if
it fails; both do the same then. Otherwise it goes on where the iterations were used up: it comes to an error,
or to a solution with more iterations, whose values begin with those of the shorter run. It does come to one of
the two if each of its searches ends. -/
theorem solve_extends {x : Grid α} {lower upper : Option (Grid α)} {s : Input.Start α}
    (hstart : Input.start x lower upper = .ok s) [Scalar.Lawful α] (problem : Problem α s.size)
    {settings : Settings α} (hsettings : settings.Valid) {precision : Precision α}
    (hp : precision.Positive) (searchFuel : Nat) {more : Int} (hmore : settings.maxIterations < more) :
    (∀ found, (solve problem settings precision searchFuel s.bounds s.x).result = .ok found →
      found.status = .converged →
      solve problem (settings.allow more) precision searchFuel s.bounds s.x =
        solve problem settings precision searchFuel s.bounds s.x) ∧
    (∀ e, (solve problem settings precision searchFuel s.bounds s.x).result = .error e →
      solve problem (settings.allow more) precision searchFuel s.bounds s.x =
        solve problem settings precision searchFuel s.bounds s.x) ∧
    ∀ found, (solve problem settings precision searchFuel s.bounds s.x).result = .ok found →
      found.status = .budgetExhausted →
      (∀ found', (solve problem (settings.allow more) precision searchFuel s.bounds s.x).result =
          .ok found' →
        settings.maxIterations < found'.iterations ∧ found.history <+: found'.history) ∧
      ((∀ t s₀ current, Runs problem (settings.allow more) precision searchFuel s.bounds s.x t s₀ →
          Solver.Visited t s₀ current → (current.search t).result ≠ .error .outOfFuel) →
        (solve problem (settings.allow more) precision searchFuel s.bounds s.x).result ≠
          .error .outOfFuel) := by
  have hb := Input.allFinite_of_start hstart
  have hbudget : (settings.budget : Int) = settings.maxIterations :=
    Int.toNat_of_nonneg (Int.le_of_lt hsettings.1)
  have hbudget' : ((settings.allow more).budget : Int) = more :=
    Int.toNat_of_nonneg (Int.le_of_lt (Int.lt_trans hsettings.1 hmore))
  have hlt : settings.budget < (settings.allow more).budget := by
    omega
  cases hcheck : s.bounds.checkStart s.x with
  | error refusal =>
    rw [solve_refused hcheck, solve_refused hcheck]
    exact ⟨nofun, fun _ _ => rfl, nofun⟩
  | ok _ =>
    refine ⟨?_, ?_, ?_⟩
    . intro found hfound hstatus
      apply solve_allow hb hcheck hp hlt
      intro found' hfound'
      rw [hfound, Except.ok.injEq] at hfound'
      rw [← hfound']
      exact hstatus
    . intro e he
      apply solve_allow hb hcheck hp hlt
      intro found hfound
      rw [he] at hfound
      cases hfound
    . intro found hfound hstatus
      refine ⟨?_, solve_ne_outOfFuel hb hcheck hp⟩
      intro found' hfound'
      obtain ⟨hmore, hprefix⟩ := solve_allow_exhausted hb hcheck hp hlt hfound hstatus hfound'
      exact ⟨by omega, hprefix⟩

theorem solve_extends_bowl :
    (∃ found found', (solve Bowl.problem (Bowl.settings 1) Line.precision 100 (Line.above 0)
        (Line.point 3)).result = .ok found ∧ found.status = .budgetExhausted ∧
      (solve Bowl.problem ((Bowl.settings 1).allow 3) Line.precision 100 (Line.above 0)
        (Line.point 3)).result = .ok found' ∧ found'.status = .converged ∧
      (Bowl.settings 1).maxIterations < found'.iterations ∧ found.history <+: found'.history) ∧
    (solve Bowl.problem ((Bowl.settings 1).allow 3) Line.precision 100 (Line.above 0)
      (Line.point 3)).result ≠ .error .outOfFuel ∧
    solve Bowl.problem ((Bowl.settings 3).allow 200) Line.precision 100 (Line.above 0) (Line.point 3) =
      solve Bowl.problem (Bowl.settings 3) Line.precision 100 (Line.above 0) (Line.point 3) := by
  have hshort := solve_extends Line.start_input Bowl.problem (Bowl.settings_valid one_pos)
    Line.precision_positive 100 (show (Bowl.settings 1).maxIterations < 3 by decide)
  have hlong := solve_extends Line.start_input Bowl.problem (Bowl.settings_valid three_pos)
    Line.precision_positive 100 (show (Bowl.settings 3).maxIterations < 200 by decide)
  obtain ⟨_, _, hexhausted⟩ := Bowl.solve_exhausted 99 Bowl.isParabola
  obtain ⟨_, _, hfound⟩ := Bowl.solve_found 3 99 Bowl.isParabola le_rfl
  obtain ⟨hgrows, hends⟩ := hshort.2.2 _ hexhausted rfl
  obtain ⟨hiterations, hprefix⟩ := hgrows _ hfound
  exact ⟨⟨_, _, hexhausted, rfl, hfound, rfl, hiterations, hprefix⟩,
    hends fun _ _ _ => Bowl.search_ne_outOfFuel 3 99 Bowl.isParabola, hlong.1 _ hfound rfl⟩

open Extended

namespace Punctured

noncomputable def problem : Problem Extended 1 :=
  { objective := fun x => .ok ((x[(0 : Fin 1)] - x[(0 : Fin 1)] * x[(0 : Fin 1)] / .finite 4) *
      (x[(0 : Fin 1)] + .finite 2) / (x[(0 : Fin 1)] + .finite 2))
    gradient := fun x => .ok #v[(.finite 1 - x[(0 : Fin 1)] / .finite 2) * (x[(0 : Fin 1)] + .finite 1) /
      (x[(0 : Fin 1)] + .finite 1)] }

theorem infinity_zero : infinity 0 = .nan := by
  unfold infinity
  rw [if_neg (lt_irrefl 0), if_neg (lt_irrefl 0)]

theorem objective_point {x : ℝ} (hx : x + 2 ≠ 0) :
    problem.objective (Line.point x) = .ok (.finite (x - x * x / 4)) := by
  unfold problem
  dsimp only
  rw [Line.getElem_point, finite_mul, finite_div four_ne_zero, finite_sub, finite_add, finite_mul,
    finite_div hx, mul_div_cancel_right₀ _ hx]

theorem objective_hole : problem.objective (Line.point (-2)) = .ok .nan := by
  unfold problem
  dsimp only
  rw [Line.getElem_point, finite_mul, finite_div four_ne_zero, finite_sub, finite_add, neg_add_cancel,
    finite_mul, mul_zero, finite_div_zero, infinity_zero]

theorem gradient_point {x : ℝ} (hx : x + 1 ≠ 0) :
    problem.gradient (Line.point x) = .ok (Line.point (1 - x / 2)) := by
  unfold problem
  dsimp only
  rw [Line.getElem_point, finite_div two_ne_zero, finite_sub, finite_add, finite_mul,
    finite_div hx, mul_div_cancel_right₀ _ hx]
  rfl

theorem gradient_hole : problem.gradient (Line.point (-1)) = .ok #v[.nan] := by
  unfold problem
  dsimp only
  rw [Line.getElem_point, finite_div two_ne_zero, finite_sub, finite_add, neg_add_cancel, finite_mul,
    mul_zero, finite_div_zero, infinity_zero]

noncomputable def once : Settings Extended :=
  Settings.default.allow 1

noncomputable def parameters : LineSearch.Parameters Extended :=
  once.searchParameters Line.precision

theorem aim_eq {x g d : ℝ} (f : Extended) (hd : d ≠ 0) (hm : |d| ≤ 100)
    (hslope : g * d < -(1 / 67108864)) (hchange : 1 / 67108864 < |d| / max |x| 1) :
    (LineSearch.aim problem parameters (.ofBounds .unbounded) (Line.point x) f (Line.point g)
      (Line.point d) (.finite 100)).result =
        .ok (.inl (Line.ray problem parameters x f g d 100 (1 / 1000000))) :=
  Line.aim_eq Line.parameters_zero Line.zero_pos Line.parameters_tolerance hd hm hslope hchange

noncomputable def ray : LineSearch.Ray Extended 1 :=
  Line.ray problem parameters 0 (.finite 0) 1 (-1) 100 (1 / 1000000)

noncomputable def result : SearchResult Extended 1 :=
  { x := Line.point (-2), value := .nan, step := .finite 2, slope := .finite (-1), status := .accepted
    newlyFixed := [], direction := Line.point (-1), activeSet := .ofBounds .unbounded }

theorem ray_search (fuel : Nat) : (ray.search (fuel + 2)).result = .ok result := by
  have hone : ray.Decreases (.finite 1) (.finite (-5 / 4)) := by
    constructor
    . apply Line.hasValue_ray
      rw [objective_point (by norm_num)]
      norm_num
    . show _ ≤ Extended.finite 0 + 1e-4 * .finite 1 * .finite (1 * -1)
      rw [ofScientific_eq, finite_mul, finite_mul, finite_add, finite_le]
      norm_num
  have hslope : ray.HasSlope (.finite 1) .nan := by
    have hpoint : problem.gradient (Line.point (0 + 1 * -1)) = .ok #v[.nan] := by
      rw [zero_add, one_mul, gradient_hole]
    exact Line.hasSlope_ray hpoint
  have hlimit : ray.extrapolationLimit = some (.finite 100) := by
    show some (Extended.finite (100 / |-1|)) = _
    norm_num
  have htwo : ray.HasValue (.finite 2) .nan := by
    have hpoint : (0 : ℝ) + 2 * -1 = -2 := by norm_num
    apply Line.hasValue_ray
    rw [hpoint, objective_hole]
  have hend : ray.point (.finite 2) = Line.point (-2) := by
    unfold ray
    rw [Line.point_ray]
    norm_num
  have hstages := LineSearch.runStages_past_undefined (r := ray) rfl hone hslope hlimit (by norm_num)
    ⟨htwo, not_nan_le⟩ fuel
  rw [LineSearch.Ray.search_of_ending hstages, LineSearch.Ray.finish_unblocked (Or.inl rfl), hend]
  show Except.ok { result with slope := .finite (1 * -1) } = _
  norm_num [result]

noncomputable def task (fuel : Nat) : Solver.Task Extended 1 :=
  { problem, settings := once, precision := Line.precision, searchFuel := fuel
    maxNorm := Solver.maxNorm once 1 (Line.point 1) }

theorem maxNorm_eq (fuel : Nat) : (task fuel).maxNorm = .finite 100 := by
  show Solver.maxNorm Settings.default 1 (Line.point 1) = _
  rw [Line.default_maxNorm]
  norm_num

noncomputable def start : Solver.Iterate Extended 1 :=
  Solver.start .unbounded (Line.point 0) (.finite 0) (Line.point 1)

theorem start_search (fuel : Nat) : (start.search (task (fuel + 2))).result = .ok result := by
  have hdirection : start.direction = Line.point (-1) := Solver.start_direction _ _ _ _
  have haim := aim_eq (x := 0) (g := 1) (d := -1) (.finite 0) (by norm_num) (by norm_num) (by norm_num)
    (by norm_num)
  unfold Solver.Iterate.search LineSearch.search
  rw [hdirection, maxNorm_eq]
  show (LineSearch.aim problem parameters (.ofBounds .unbounded) (Line.point 0) (.finite 0)
    (Line.point 1) (Line.point (-1)) (.finite 100) >>= _).result = _
  rw [Logged.result_bind_of_ok haim]
  exact ray_search fuel

theorem steps (fuel : Nat) : start.Steps (task (fuel + 2)) result (Line.point 2) (.finite 1) where
  search := start_search fuel
  status := nofun
  displacement := by
    refine (Line.displacement_point (-2) 0).trans ?_
    norm_num
  gradient := by
    show problem.gradient (Line.point (-2)) = _
    rw [gradient_point (by norm_num)]
    norm_num

noncomputable abbrev progress : Solver.Progress Extended 1 :=
  start.progress result (Line.point 2)

theorem moves : Line.Moves start result 0 1 (-2) (-1) :=
  ⟨rfl, rfl, rfl, rfl, rfl⟩

theorem gradientTest_eq : progress.gradientTest = .nan := by
  have hscale : Scalar.pickMax (Scalar.abs Extended.nan) 1 = .nan := if_neg not_nan_lt
  have hmaximum : Scalar.maximum (0 : Extended) .nan = .nan := by
    unfold Scalar.maximum
    rw [zero_eq, isUndefined_finite, if_neg]
    rintro (h | h)
    . exact not_nan_le h
    . cases h
  show Scalar.maximum 0 (_ / Scalar.pickMax (Scalar.abs Extended.nan) 1) = _
  rw [hscale, div_nan, hmaximum]

theorem not_converges (fuel : Nat) :
    ¬start.Converges (task fuel) result (Line.point 2) (.finite 1) := by
  have hzero : (task fuel).precision.zero = .finite (1 / 67108864) := rfl
  unfold Solver.Iterate.Converges Solver.Progress.converged
  rw [hzero, gradientTest_eq, moves.totalCurvature, abs_finite, Bool.or_eq_true, decide_eq_true_eq,
    decide_eq_true_eq, finite_lt, finite_lt, not_or, not_or]
  exact ⟨by norm_num, not_nan_lt, by norm_num⟩

theorem not_isCurved (fuel : Nat) :
    ¬progress.isCurved (task fuel).precision.zero result.activeSet.free = true := by
  have hzero : (task fuel).precision.zero = .finite (1 / 67108864) := rfl
  rw [hzero, moves.isCurved_iff]
  norm_num

noncomputable def second : Solver.Iterate Extended 1 :=
  { start.move result (Line.point 2) with direction := Line.point (-2) }

theorem start_pass (fuel : Nat) : (start.pass (task (fuel + 2))).result = .ok (.inl second) := by
  have hdirection : (Factor.identity : Factor Extended 1).direction (Line.point 2) result.activeSet.fixed =
      .ok (Line.point (-2)) :=
    Factor.direction_identity result.activeSet.fixed fun _ => 2
  have hredirects : (start.move result (Line.point 2)).Redirects second := ⟨_, hdirection, rfl⟩
  apply Solver.pass_outcome_iff.mpr
  refine .step (steps fuel) (not_converges _) ?_ hredirects
  rw [if_neg (not_isCurved _)]

theorem endless_search (fuel : Nat) : ((Line.ray problem parameters (-2) .nan 2 (-2) 100
    (1 / 1000000)).search fuel).result = .error .outOfFuel := by
  have hdefined : ∃ v, (Line.ray problem parameters (-2) .nan 2 (-2) 100 (1 / 1000000)).HasValue .nan v :=
    ⟨_, rfl⟩
  obtain ⟨v, hv⟩ := hdefined
  apply LineSearch.Ray.search_endless (f := -8) rfl _ _ hv
  . have hstep : (LineSearch.firstTrial (Line.ray problem parameters (-2) .nan 2 (-2) 100
        (1 / 1000000))).step = .finite 1 := rfl
    rw [hstep]
    apply Line.hasValue_ray
    rw [objective_point (by norm_num)]
    norm_num
  . show ¬Extended.finite 1 < .finite (1 / 1000000 / (|-2| / max |-2| 1))
    rw [finite_lt]
    norm_num

theorem second_search (fuel : Nat) : (second.search (task fuel)).result = .error .outOfFuel := by
  have haim := aim_eq (x := -2) (g := 2) (d := -2) .nan (by norm_num) (by norm_num) (by norm_num)
    (by norm_num)
  unfold Solver.Iterate.search LineSearch.search
  rw [maxNorm_eq]
  show (LineSearch.aim problem parameters (.ofBounds .unbounded) (Line.point (-2)) .nan
    (Line.point 2) (Line.point (-2)) (.finite 100) >>= _).result = _
  rw [Logged.result_bind_of_ok haim]
  exact endless_search fuel

theorem second_pass (fuel : Nat) : (second.pass (task fuel)).result = .error .outOfFuel := by
  unfold Solver.Iterate.pass
  rw [result_note_bind, Logged.result_bind_of_error (second_search fuel)]

noncomputable def input : Input.Start Extended :=
  { size := 1, bounds := .unbounded, x := Line.point 0 }

theorem start_input : Input.start (.ofArray #[.finite 0]) none none = .ok input := rfl

theorem checkStart_input : input.bounds.checkStart input.x = .ok () := rfl

theorem runs (fuel : Nat) :
    Runs problem once Line.precision fuel .unbounded (Line.point 0) (task fuel) start := by
  refine ⟨.finite 0, Line.point 1, ?_, ?_, rfl, rfl⟩
  . show problem.objective (Line.point 0) = _
    rw [objective_point (by norm_num)]
    norm_num
  . show problem.gradient (Line.point 0) = _
    rw [gradient_point (by norm_num)]
    norm_num

theorem solve_once (fuel : Nat) :
    ∃ found, (solve problem once Line.precision (fuel + 2) .unbounded (Line.point 0)).result = .ok found ∧
      found.status = .budgetExhausted := by
  have hlt : start.iterations < (task (fuel + 2)).settings.budget := Nat.zero_lt_one
  have hend : ¬second.iterations < (task (fuel + 2)).settings.budget := lt_irrefl 1
  have hrun : (Solver.run (task (fuel + 2)) (1 + 1) start).result = second.solution .budgetExhausted := by
    rw [Solver.run_succ hlt, Logged.result_bind_of_ok (start_pass fuel)]
    exact Solver.run_exhausted hend 1
  obtain ⟨_, _, hsolve⟩ := solve_result checkStart_input (runs (fuel + 2))
  exact ⟨_, hsolve.trans (congrArg _ hrun), rfl⟩

theorem solve_twice (fuel : Nat) : (solve problem (once.allow 2) Line.precision (fuel + 2) .unbounded
    (Line.point 0)).result = .error .outOfFuel := by
  have hlt : start.iterations < ((task (fuel + 2)).allow 2).settings.budget := Nat.zero_lt_two
  have hlt' : second.iterations < ((task (fuel + 2)).allow 2).settings.budget := Nat.one_lt_two
  have hcheck : (Bounds.unbounded : Bounds Extended 1).checkStart (Line.point 0) = .ok () := rfl
  rw [solve_error_iff hcheck (runs (fuel + 2)).allow]
  show (Solver.run _ (2 + 1 + 1) start).result = _
  rw [Solver.run_succ hlt, Solver.pass_allow, Logged.result_bind_of_ok (start_pass fuel)]
  show (Solver.run _ (2 + 1) second).result = _
  rw [Solver.run_succ hlt', Solver.pass_allow, Logged.result_bind_of_error (second_pass _)]

theorem once_valid : once.Valid :=
  Settings.valid_of_maxIterations one_pos

end Punctured

theorem solve_does_not_extend :
    Input.start (.ofArray #[.finite 0]) none none = .ok Punctured.input ∧
      Punctured.input.bounds.checkStart Punctured.input.x = .ok () ∧ Punctured.once.Valid ∧
      Punctured.once.maxIterations < 2 ∧ ∀ fuel,
        (∃ found, (solve Punctured.problem Punctured.once Line.precision (fuel + 2)
            Punctured.input.bounds Punctured.input.x).result = .ok found ∧
          found.status = .budgetExhausted) ∧
        (solve Punctured.problem (Punctured.once.allow 2) Line.precision (fuel + 2)
            Punctured.input.bounds Punctured.input.x).result = .error .outOfFuel := by
  refine ⟨Punctured.start_input, Punctured.checkStart_input, Punctured.once_valid, by decide, ?_⟩
  intro fuel
  exact ⟨Punctured.solve_once fuel, Punctured.solve_twice fuel⟩

end BoxDescent

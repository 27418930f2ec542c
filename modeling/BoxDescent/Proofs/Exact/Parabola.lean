import BoxDescent.Input.Box
import BoxDescent.Proofs.Selection
import BoxDescent.Proofs.Settings
import BoxDescent.Proofs.Exact.Round

/-!
This module contains two runs over a parabola `½a(x - m)²` that start at three, with nothing below zero. In
both of them the first search ends at the bound. In the one of `Steep` no step is taken, as the bound is too
close for that. In the one of `Bowl` a step is taken, after which the variable is released again; the factors
are updated once, and the fourth point is the minimum.
-/

namespace BoxDescent

open Extended

/-- The objective is `½a(x - m)²`. -/
structure Problem.IsParabola (p : Problem Extended 1) (a m : ℝ) : Prop where
  objective : ∀ x, p.objective (Line.point x) = .ok (.finite (a / 2 * ((x - m) * (x - m))))
  gradient : ∀ x, p.gradient (Line.point x) = .ok (Line.point (a * (x - m)))
  hessianRow : ∀ x, ∃ row, (p.evalHessianRow x 0).result = .ok row

noncomputable def Problem.parabola (a m : ℝ) : Problem Extended 1 :=
  { objective := fun x =>
      .ok (.finite (a / 2) * ((x[(0 : Fin 1)] - .finite m) * (x[(0 : Fin 1)] - .finite m)))
    gradient := fun x => .ok #v[.finite a * (x[(0 : Fin 1)] - .finite m)]
    hessianRow := none }

theorem Problem.isParabola_parabola (a m : ℝ) : (Problem.parabola a m).IsParabola a m where
  objective := by
    intro x
    unfold parabola
    dsimp only
    rw [Line.getElem_point, finite_sub, finite_mul, finite_mul]
  gradient := by
    intro x
    unfold parabola
    dsimp only
    rw [Line.getElem_point, finite_sub, finite_mul]
    rfl
  hessianRow := fun _ => ⟨none, rfl⟩

theorem Input.sideBounds_one (side : Side) (v : ℝ) :
    Input.sideBounds 1 side (some (.ofArray #[finite v])) = .ok #v[some (finite v)] := by
  unfold sideBounds
  show Except.ok (#v[finite v].map finiteBound) = _
  simp [finiteBound]

namespace Line

theorem reached_above (l : ℝ) : (above l).reached 0 (point l)[(0 : Fin 1)] .lower = true := by
  show decide ((point l)[(0 : Fin 1)] ≤ .finite l) = true
  rw [getElem_point, decide_eq_true_eq, finite_le]

theorem start_above (x : ℝ) : Input.start (.ofArray #[.finite x]) (some (.ofArray #[.finite 0])) none =
    .ok { size := 1, bounds := above 0, x := point x } := by
  show (Input.sideBounds 1 .lower (some (.ofArray #[finite 0])) >>= fun lower =>
    .ok (Input.Start.mk 1 { lower, upper := Vector.replicate 1 none } #v[finite x])) = _
  rw [Input.sideBounds_one]
  rfl

noncomputable def input : Input.Start Extended :=
  { size := 1, bounds := above 0, x := point 3 }

theorem start_input :
    Input.start (.ofArray #[.finite 3]) (some (.ofArray #[.finite 0])) none = .ok input :=
  start_above 3

theorem checkStart_above : (above 0).checkStart (point 3) = .ok () := by
  have hreached : (above 0).reached 0 (point 3)[(0 : Fin 1)] .lower = false := by
    show decide ((point 3)[(0 : Fin 1)] ≤ .finite 0) = false
    rw [getElem_point, decide_eq_false_iff_not, finite_le]
    norm_num
  have hcrossed : (above 0).crossed = false := rfl
  have hrange : List.finRange 1 = [0] := rfl
  unfold Bounds.checkStart
  rw [hcrossed, if_neg Bool.false_ne_true, hrange, List.any_cons, hreached]
  rfl

noncomputable abbrev parameters : LineSearch.Parameters Extended :=
  Settings.searchParameters .default precision

theorem parameters_epsilon : parameters.precision.epsilon = .finite (1 / 4503599627370496) := rfl

theorem parameters_zero : parameters.precision.zero = .finite (1 / 67108864) := rfl

theorem parameters_tolerance : parameters.displacementTolerance = .finite (1 / 1000000) := by
  show (1e-6 : Extended) = _
  rw [ofScientific_eq]
  norm_num

theorem default_maxNorm (g : ℝ) :
    Solver.maxNorm Settings.default 1 (point g) = .finite (100 * max |g| 1) := by
  rw [maxNorm_eq]
  show (100.0 : Extended) * .finite _ = _
  rw [ofScientific_eq, finite_mul]
  norm_num

theorem some_far {c : ℝ} (hc : 1 ≤ c) (r : Extended) (hr : some (.finite c) = some r) :
    ∃ t, 1 ≤ t ∧ r = .finite t :=
  ⟨c, hc, (Option.some.inj hr).symm⟩

section Search

variable {b : Bounds Extended 1} {reach : Option Extended} {blocking : Option (Fin 1)}
  {p : Problem Extended 1} {x y f v g w d₀ d m : ℝ}

theorem search_full (hy : x + d = y) (hv : p.objective (point y) = .ok (.finite v))
    (hw : p.gradient (point y) = .ok (point w))
    (hreach : (LineSearch.reach precision (point d) (point x) (.ofBounds b) [0]).result = .ok {
      step := reach, blocking, x := point x, activeSet := .ofBounds b, newlyFixed := [] })
    (hfar : ∀ r, reach = some r → ∃ t, 1 ≤ t ∧ r = .finite t)
    (hclip : b.clip 0 (.finite y) = .finite y) (hscales : Scales d₀ d m) (hslope : g * d < -1 / 1000)
    (hchange : 1 / 1000 < |d| / max |x| 1) (hdecrease : v ≤ f + 1 / 10000 * (g * d))
    (hflat : 9 / 10 * (g * d) ≤ w * d) (fuel : Nat) :
    (LineSearch.search (fuel + 1) p parameters (.ofBounds b) (point x) (.finite f) (point g) (point d₀)
      (.finite m)).result = ((rayIn b reach blocking p parameters x (.finite f) g d m
        (1 / 1000000)).finish (.accepted (.finite 1) (.finite v))).result := by
  have hopen : reach.any (· ≤ parameters.precision.zero) = false := by
    cases reach with
    | none => rfl
    | some r =>
      obtain ⟨t, ht, rfl⟩ := hfar r rfl
      show decide (Extended.finite t ≤ .finite (1 / 67108864)) = false
      rw [decide_eq_false_iff_not, finite_le]
      linarith
  have haim : (LineSearch.aim p parameters (.ofBounds b) (point x) (.finite f) (point g) (point d₀)
      (.finite m)).result = .ok (.inl (rayIn b reach blocking p parameters x (.finite f) g d m
        (1 / 1000000))) :=
    aim_in parameters_zero zero_pos parameters_tolerance hscales (by linarith) (by linarith) hreach hopen
  subst hy
  apply search_taken haim hfar hclip hv hw
  . show _ ≤ Extended.finite f + 1e-4 * .finite 1 * .finite (g * d)
    rw [ofScientific_eq, finite_mul, finite_mul, finite_add, finite_le]
    norm_num
    linarith
  . show (0.9 : Extended) * .finite (g * d) ≤ _
    rw [ofScientific_eq, finite_mul, finite_le]
    norm_num
    linarith

end Search

end Line

namespace Steep

noncomputable abbrev problem : Problem Extended 1 :=
  .parabola 400000000 1

variable {p : Problem Extended 1} {m : ℝ}

noncomputable def task (p : Problem Extended 1) (m : ℝ) (fuel : Nat) : Solver.Task Extended 1 :=
  { problem := p, settings := .default, precision := Line.precision, searchFuel := fuel
    maxNorm := Solver.maxNorm .default 1 (Line.point (400000000 * (3 - m))) }

noncomputable def start (m : ℝ) : Solver.Iterate Extended 1 :=
  Solver.start (Line.above 0) (Line.point 3) (.finite (400000000 / 2 * ((3 - m) * (3 - m))))
    (Line.point (400000000 * (3 - m)))

theorem runs (hp : p.IsParabola 400000000 m) (fuel : Nat) :
    Runs p .default Line.precision fuel (Line.above 0) (Line.point 3) (task p m fuel) (start m) :=
  ⟨_, _, hp.objective 3, hp.gradient 3, rfl, rfl⟩

noncomputable def result (m : ℝ) : SearchResult Extended 1 :=
  Line.snapped (.finite (400000000 / 2 * ((3 - m) * (3 - m)))) (400000000 * (3 - m))
    (-(400000000 * (3 - m))) 0

theorem start_search (p : Problem Extended 1) (hm : m ≤ 2) (fuel : Nat) :
    ((start m).search (task p m fuel)).result = .ok (result m) := by
  have hg : 1 ≤ 400000000 * (3 - m) := by linarith
  have hsteep : 400000000 ≤ 400000000 * (3 - m) := by linarith
  have hsquare := mul_le_mul hg hg zero_le_one (by linarith)
  have habs : |-(400000000 * (3 - m))| = 400000000 * (3 - m) := by
    rw [abs_neg, abs_of_pos (by linarith)]
  have hmax : max |(3 : ℝ)| 1 = 3 := by norm_num
  have hdirection : (start m).direction = Line.point (-(400000000 * (3 - m))) :=
    Solver.start_direction (Line.above 0) (Line.point 3) _ _
  unfold Solver.Iterate.search task
  rw [hdirection, Line.default_maxNorm, abs_of_pos (by linarith), max_eq_left hg]
  apply Line.search_snaps Line.parameters_epsilon Line.parameters_zero Line.zero_pos
  . linarith
  . linarith
  . rw [habs]
    linarith
  . linarith
  . rw [habs, hmax]
    linarith
  . rw [zero_sub, neg_div_neg_eq, div_le_div_iff₀ (by linarith) (by norm_num)]
    linarith

noncomputable def held (m : ℝ) : Solver.Iterate Extended 1 :=
  { (start m).snap (result m) (Line.point (400000000 * (0 - m))) with direction := Line.point 0 }

theorem start_pass (hp : p.IsParabola 400000000 m) (hm : m ≤ 2) (fuel : Nat) :
    ((start m).pass (task p m fuel)).result = .ok (.inl (held m)) := by
  have hfactor : ((start m).snap (result m) (Line.point (400000000 * (0 - m)))).factor = Line.factor 0 := by
    show (Factor.identity : Factor Extended 1).reset 0 0 = _
    rw [Line.identity_eq]
    exact Line.reset_eq 1 0
  apply Solver.pass_outcome_iff.mpr
  refine .snap (start_search p hm fuel) rfl (hp.gradient 0) ⟨Line.point 0, ?_, rfl⟩
  rw [hfactor]
  exact Line.direction_fixed 0 _ rfl

theorem visited_held (hp : p.IsParabola 400000000 m) (hm : m ≤ 2) (fuel : Nat) :
    Solver.Visited (task p m fuel) (start m) (held m) := by
  have hbudget : 0 < (Settings.default : Settings Extended).budget := by
    show 0 < 200
    omega
  exact .pass (.start hbudget) (start_pass hp hm fuel) hbudget

end Steep

namespace Bowl

noncomputable abbrev problem : Problem Extended 1 :=
  .parabola (3 / 2) 1

theorem isParabola : problem.IsParabola (3 / 2) 1 :=
  Problem.isParabola_parabola _ _

noncomputable def settings (k : Int) : Settings Extended :=
  { Settings.default with maxIterations := k }

theorem settings_valid {k : Int} (hk : 0 < k) : (settings k).Valid :=
  Settings.valid_of_maxIterations hk

variable {p : Problem Extended 1} (k : Int) (fuel : Nat)

noncomputable def task (p : Problem Extended 1) : Solver.Task Extended 1 :=
  { problem := p, settings := settings k, precision := Line.precision, searchFuel := fuel
    maxNorm := Solver.maxNorm (settings k) 1 (Line.point 3) }

noncomputable def start : Solver.Iterate Extended 1 :=
  Solver.start (Line.above 0) (Line.point 3) (.finite 3) (Line.point 3)

noncomputable def second : Solver.Iterate Extended 1 :=
  { x := Line.point 0, value := .finite (3 / 4), grad := Line.point (-3 / 2), factor := Line.factor 1
    direction := Line.point (3 / 2), activeSet := .ofBounds (Line.above 0), toFree := some [0]
    iterations := 1, history := [.finite 3, .finite (3 / 4)] }

noncomputable def third : Solver.Iterate Extended 1 :=
  { x := Line.point (3 / 2), value := .finite (3 / 16), grad := Line.point (3 / 4)
    factor := Line.factor (3 / 2), direction := Line.point (-1 / 2)
    activeSet := .ofBounds (Line.above 0), toFree := some [0], iterations := 2
    history := [.finite 3, .finite (3 / 4), .finite (3 / 16)] }

noncomputable def found : Solution Extended 1 :=
  { x := Line.point 1, value := .finite 0, status := .converged, iterations := 3, objectiveCount := 0
    gradientCount := 0, multipliers := []
    history := [.finite 3, .finite (3 / 4), .finite (3 / 16), .finite 0] }

theorem maxNorm_eq : (task k fuel p).maxNorm = .finite 300 := by
  refine (Line.default_maxNorm 3).trans ?_
  norm_num

variable (hp : p.IsParabola (3 / 2) 1)
include hp

theorem objective_eq {x v : ℝ} (hv : 3 / 4 * ((x - 1) * (x - 1)) = v) :
    p.objective (Line.point x) = .ok (.finite v) := by
  rw [hp.objective, ← hv]
  norm_num

theorem gradient_eq {x w : ℝ} (hw : 3 / 2 * (x - 1) = w) : p.gradient (Line.point x) = .ok (Line.point w) := by
  rw [hp.gradient, hw]

theorem start_search : (start.search (task k (fuel + 1) p)).result =
    .ok (Line.stopped 0 (3 / 4) 3 (-3)) := by
  have hdirection : start.direction = Line.point (-3) := Solver.start_direction _ _ _ _
  have hratio : ((0 : ℝ) - 3) / (-3) = 1 := by norm_num
  have hreach := Line.reach_down (x := 3) (l := 0) (d := -3) Line.parameters_epsilon Line.parameters_zero
    (by norm_num) (by norm_num) (by norm_num)
  rw [hratio] at hreach
  have hsearch := Line.search_full (f := 3) (g := 3) (m := 300) (by norm_num)
    (objective_eq hp (x := 0) (v := 3 / 4) (by norm_num)) (gradient_eq hp (w := -3 / 2) (by norm_num)) hreach
    (Line.some_far le_rfl) (Line.clip_above le_rfl) (Line.scales_self (by norm_num) (by norm_num)) (by norm_num) (by norm_num)
    (by norm_num) (by norm_num) fuel
  unfold Solver.Iterate.search
  rw [hdirection, maxNorm_eq]
  refine hsearch.trans ?_
  rw [Line.finish_stopped (by norm_num) (by norm_num)]

theorem second_search : (second.search (task k (fuel + 1) p)).result =
    .ok (Line.stepped (Line.above 0) (3 / 2) (3 / 16) (-3 / 2) (3 / 2)) := by
  have hreach := congrArg Logged.result
    (Line.reach_up (x := 0) (l := 0) (d := 3 / 2) Line.parameters_epsilon (by norm_num) (by norm_num))
  have hclip : (Line.above 0).clip 0 (.finite (3 / 2)) = .finite (3 / 2) := Line.clip_above (by norm_num)
  have hsearch := Line.search_full (f := 3 / 4) (g := -3 / 2) (m := 300) (zero_add (3 / 2))
    (objective_eq hp (v := 3 / 16) (by norm_num)) (gradient_eq hp (w := 3 / 4) (by norm_num)) hreach
    nofun hclip (Line.scales_self (by norm_num) (by norm_num)) (by norm_num) (by norm_num) (by norm_num)
    (by norm_num) fuel
  unfold Solver.Iterate.search
  rw [maxNorm_eq]
  refine hsearch.trans ?_
  rw [Line.finish_stepped (Or.inl rfl) (by rw [zero_add]; exact hclip) (zero_add _)]

theorem third_search : (third.search (task k (fuel + 1) p)).result =
    .ok (Line.stepped (Line.above 0) 1 0 (3 / 4) (-1 / 2)) := by
  have hratio : ((0 : ℝ) - 3 / 2) / (-1 / 2) = 3 := by norm_num
  have hmove : (3 / 2 + -1 / 2 : ℝ) = 1 := by norm_num
  have hreach := Line.reach_down (x := 3 / 2) (l := 0) (d := -1 / 2) Line.parameters_epsilon
    Line.parameters_zero (by norm_num) (by norm_num) (by norm_num)
  rw [hratio] at hreach
  have hbelow : LineSearch.below (.finite 1) (some (Extended.finite 3)) = true := by
    show decide (Extended.finite 1 < .finite 3) = true
    rw [decide_eq_true_eq, finite_lt]
    norm_num
  have hclip : (Line.above 0).clip 0 (.finite 1) = .finite 1 := Line.clip_above zero_le_one
  have hsearch := Line.search_full (f := 3 / 16) (g := 3 / 4) (m := 300) hmove
    (objective_eq hp (v := 0) (by norm_num)) (gradient_eq hp (w := 0) (by norm_num)) hreach
    (Line.some_far (by norm_num)) hclip (Line.scales_self (by norm_num) (by norm_num)) (by norm_num) (by norm_num) (by norm_num)
    (by norm_num) fuel
  unfold Solver.Iterate.search
  rw [maxNorm_eq]
  refine hsearch.trans ?_
  rw [Line.finish_stepped (Or.inr hbelow) (by rw [hmove]; exact hclip) hmove]

section Passes

theorem start_steps : start.Steps (task k (fuel + 1) p) (Line.stopped 0 (3 / 4) 3 (-3))
    (Line.point (-3 / 2)) (.finite (|0 - 3| / max |0| 1)) where
  search := start_search k fuel hp
  status := nofun
  displacement := Line.displacement_point 0 3
  gradient := gradient_eq hp (by norm_num)

omit hp in
theorem start_converges (change : Extended) : start.Converges (task k fuel p)
    (Line.stopped 0 (3 / 4) 3 (-3)) (Line.point (-3 / 2)) change := by
  have htest : (start.progress (Line.stopped 0 (3 / 4) 3 (-3)) (Line.point (-3 / 2))).gradientTest =
      .finite 0 := rfl
  refine Or.inr ?_
  unfold Solver.Progress.converged
  rw [htest, Bool.or_eq_true, decide_eq_true_eq]
  refine Or.inl ?_
  show Extended.finite 0 < .finite (1 / 67108864)
  rw [finite_lt]
  norm_num

theorem estimate_eq (step : Vector Extended 1) : ∃ secondOrder,
    (Release.estimate p ((ActiveSet.ofBounds (Line.above 0)).fix 0 .lower) (Line.point 0)
      (Line.point (-3 / 2)) step 0).result =
        .ok { first := .finite (-3 / 2), change := .finite 0, secondOrder } := by
  have hmultiplier : ((ActiveSet.ofBounds (Line.above 0)).fix 0 .lower).multiplier (Line.point 0)
      (Line.point (-3 / 2)) 0 = .ok (.finite (-3 / 2)) := by
    unfold ActiveSet.multiplier
    show (if false = true then _
      else if (Line.above 0).reached 0 (Line.point 0)[(0 : Fin 1)] .lower then _ else _) = _
    rw [Line.reached_above, if_neg Bool.false_ne_true, if_pos rfl, Line.getElem_point]
  obtain ⟨row, hrow⟩ := hp.hessianRow (Line.point 0)
  refine ⟨row.isSome, ?_⟩
  unfold Release.estimate
  rw [Logged.result_bind_of_ok hrow]
  dsimp only
  rw [hmultiplier, Logged.result_bind_of_ok (Logged.result_ofExcept _), result_note_bind]
  cases row with
  | none => rfl
  | some h => rfl

theorem select_eq (step : Vector Extended 1) :
    (Release.select p ((ActiveSet.ofBounds (Line.above 0)).fix 0 .lower) (Line.point 0)
      (Line.point (-3 / 2)) step none).result = .ok { indices := [], verdict := .ok ([0], true) } := by
  obtain ⟨secondOrder, hestimate⟩ := estimate_eq hp step
  have hreleased : ({ first := .finite (-3 / 2), change := .finite 0, secondOrder } :
      Release.Estimate Extended).isReleased = true := by
    rw [Release.isReleased_finite rfl rfl]
    norm_num
  unfold Release.select
  show (Release.decision _ _ [0]).result = _
  rw [Release.decision_single hestimate (Or.inr rfl), hreleased]
  rfl

omit hp in
theorem released_eq : (start.move (Line.stopped 0 (3 / 4) 3 (-3)) (Line.point (-3 / 2))).released [] [0] =
    { second with direction := Line.point (-3) } := by
  have hdirection : start.direction = Line.point (-3) := Solver.start_direction _ _ _ _
  have hfactor : (Factor.identity : Factor Extended 1).resetAll [0] 1 = Line.factor 1 := by
    rw [Line.identity_eq]
    exact Line.reset_eq 1 1
  have hside : ActiveSet.sideOf { (ActiveSet.ofBounds (Line.above 0)).fix 0 .lower with indices := [] } 0
      (Line.point 0)[(0 : Fin 1)] = .lower := if_pos (Line.reached_above 0)
  have hactive : ActiveSet.release { (ActiveSet.ofBounds (Line.above 0)).fix 0 .lower with indices := [] } 0
      (Line.point 0)[(0 : Fin 1)] = .ofBounds (Line.above 0) := by
    unfold ActiveSet.release
    rw [hside]
    rfl
  unfold Solver.Iterate.released
  show Solver.Iterate.mk _ _ _ (Factor.resetAll _ _ _) start.direction (ActiveSet.release _ _ _) _ _ _ = _
  rw [hdirection]
  congr 1

theorem start_pass : (start.pass (task k (fuel + 1) p)).result = .ok (.inl second) := by
  apply Solver.pass_outcome_iff.mpr
  refine .release (start_steps k fuel hp) (start_converges k _ _) (Factor.direction_identity _ _)
    (select_eq hp _) ⟨Line.point (3 / 2), ?_, ?_⟩
  . rw [released_eq]
    show (Line.factor 1).direction (Line.point (-3 / 2)) Line.free = _
    rw [Line.direction_eq one_pos]
    norm_num
  . rw [released_eq]
    rfl

omit hp in
theorem second_moves : Line.Moves second (Line.stepped (Line.above 0) (3 / 2) (3 / 16) (-3 / 2) (3 / 2)) 0
    (-3 / 2) (3 / 2) (3 / 2) :=
  ⟨rfl, rfl, rfl, rfl, rfl⟩

theorem second_updates : second.Updates (task k (fuel + 1) p)
    (Line.stepped (Line.above 0) (3 / 2) (3 / 16) (-3 / 2) (3 / 2)) (Line.point (3 / 4))
    (Line.factor (3 / 2)) where
  search := second_search k fuel hp
  status := nofun
  displaced := by
    have hfar : ¬Extended.finite (|3 / 2 - 0| / max |3 / 2| 1) < .finite (1 / 67108864) := by
      rw [finite_lt]
      norm_num
    exact (Solver.displacementConverged_eq (Line.displacement_point _ _)).trans
      (congrArg Except.ok (decide_eq_false hfar))
  gradient := Problem.eval_of_gradient (gradient_eq hp (by norm_num))
  unconverged := second_moves.not_converged (3 / 4) rfl (by norm_num) (by norm_num)
  curved := second_moves.isCurved (3 / 4) (by norm_num) (by norm_num) (by norm_num)
  factor := by
    rw [second_moves.gradChange, second_moves.curvature]
    refine (Line.updateFactor_eq one_pos ?_ ?_ ?_ _).trans ?_
    . norm_num
    . norm_num
    . norm_num
    . norm_num

theorem second_pass : (second.pass (task k (fuel + 1) p)).result = .ok (.inl third) := by
  have hdirection : (Line.factor (3 / 2)).direction (Line.point (3 / 4)) Line.free =
      .ok (Line.point (-1 / 2)) := by
    rw [Line.direction_eq (by norm_num)]
    norm_num
  have hredirects : Solver.Iterate.Redirects { second.move (Line.stepped (Line.above 0) (3 / 2) (3 / 16)
      (-3 / 2) (3 / 2)) (Line.point (3 / 4)) with factor := Line.factor (3 / 2) } third :=
    ⟨Line.point (-1 / 2), hdirection, rfl⟩
  rw [(second_updates k fuel hp).pass_result, hredirects.result]
  rfl

theorem third_steps : third.Steps (task k (fuel + 1) p)
    (Line.stepped (Line.above 0) 1 0 (3 / 4) (-1 / 2)) (Line.point 0)
    (.finite (|1 - 3 / 2| / max |1| 1)) where
  search := third_search k fuel hp
  status := nofun
  displacement := Line.displacement_point 1 (3 / 2)
  gradient := gradient_eq hp (by norm_num)

omit hp in
theorem third_converges (change : Extended) : third.Converges (task k fuel p)
    (Line.stepped (Line.above 0) 1 0 (3 / 4) (-1 / 2)) (Line.point 0) change := by
  have hmoves : Line.Moves third (Line.stepped (Line.above 0) 1 0 (3 / 4) (-1 / 2)) (3 / 2) (3 / 4) 1
      (-1 / 2) := ⟨rfl, rfl, rfl, rfl, rfl⟩
  refine Or.inr ?_
  unfold Solver.Progress.converged
  rw [hmoves.gradientTest 0 rfl, Bool.or_eq_true, decide_eq_true_eq]
  refine Or.inl ?_
  show _ < Extended.finite (1 / 67108864)
  rw [finite_lt]
  norm_num

theorem third_pass : (third.pass (task k (fuel + 1) p)).result = .ok (.inr found) := by
  have hdirection := Line.direction_eq (d := 3 / 2) (by norm_num) 0
  have hvalue := objective_eq hp (x := 1) (v := 0) (by norm_num)
  exact Solver.pass_outcome_iff.mpr (.finish (third_steps k fuel hp) (third_converges k _ _) hdirection rfl
    hvalue rfl)

end Passes

theorem visited_cases {s : Solver.Iterate Extended 1} (h : Solver.Visited (task k (fuel + 1) p) start s) :
    s = start ∨ s = second ∨ s = third := by
  induction h with
  | start _ => exact Or.inl rfl
  | pass _ hpass _ ih =>
    obtain rfl | rfl | rfl := ih
    . rw [start_pass k fuel hp] at hpass
      cases hpass
      exact Or.inr (Or.inl rfl)
    . rw [second_pass k fuel hp] at hpass
      cases hpass
      exact Or.inr (Or.inr rfl)
    . rw [third_pass k fuel hp] at hpass
      cases hpass

theorem runs : Runs p (settings k) Line.precision fuel (Line.above 0) (Line.point 3) (task k fuel p)
    start :=
  ⟨_, _, objective_eq hp (by norm_num), gradient_eq hp (by norm_num), rfl, rfl⟩

theorem exists_accepted {t : Solver.Task Extended 1} {s₀ s : Solver.Iterate Extended 1}
    (hruns : Runs p (settings k) Line.precision (fuel + 1) (Line.above 0) (Line.point 3) t s₀)
    (h : Solver.Visited t s₀ s) : ∃ r, (s.search t).result = .ok r ∧ r.status = .accepted := by
  obtain ⟨rfl, rfl⟩ := (runs k (fuel + 1) hp).unique hruns
  obtain rfl | rfl | rfl := visited_cases k fuel hp h
  . exact ⟨_, start_search k fuel hp, rfl⟩
  . exact ⟨_, second_search k fuel hp, rfl⟩
  . exact ⟨_, third_search k fuel hp, rfl⟩

theorem search_ne_outOfFuel {t : Solver.Task Extended 1} {s₀ s : Solver.Iterate Extended 1}
    (hruns : Runs p (settings k) Line.precision (fuel + 1) (Line.above 0) (Line.point 3) t s₀)
    (h : Solver.Visited t s₀ s) : (s.search t).result ≠ .error .outOfFuel := by
  obtain ⟨r, hr, _⟩ := exists_accepted k fuel hp hruns h
  intro hfuel
  cases hr.symm.trans hfuel

omit hp in
theorem lt_budget {i : Nat} (hi : (i : Int) < k) : i < (settings k).budget := by
  show i < k.toNat
  omega

theorem visited_second (hk : 3 ≤ k) : Solver.Visited (task k (fuel + 1) p) start second := by
  have hstart : Solver.Visited (task k (fuel + 1) p) start start :=
    .start (lt_budget k (i := 0) (by omega))
  exact hstart.pass (start_pass k fuel hp) (lt_budget k (i := 1) (by omega))

theorem visited_third (hk : 3 ≤ k) : Solver.Visited (task k (fuel + 1) p) start third :=
  (visited_second k fuel hp hk).pass (second_pass k fuel hp) (lt_budget k (i := 2) (by omega))

theorem solve_found (hk : 3 ≤ k) : ∃ objectiveCount gradientCount,
    (solve p (settings k) Line.precision (fuel + 1) (Line.above 0) (Line.point 3)).result =
      .ok { found with objectiveCount, gradientCount } := by
  have hbudget := lt_budget k (i := 2) (by omega)
  obtain ⟨objectiveCount, gradientCount, hsolve⟩ :=
    solve_result Line.checkStart_above (runs k (fuel + 1) hp)
  obtain ⟨rounds, hrounds⟩ : ∃ rounds, (1 + 1) * (settings k).budget = rounds + 1 + 1 + 1 :=
    ⟨(1 + 1) * (settings k).budget - 3, by omega⟩
  refine ⟨objectiveCount, gradientCount, ?_⟩
  rw [hsolve, hrounds, Solver.run_succ (lt_budget k (i := 0) (by omega)),
    Logged.result_bind_of_ok (start_pass k fuel hp)]
  dsimp only
  rw [Solver.run_succ (lt_budget k (i := 1) (by omega)), Logged.result_bind_of_ok (second_pass k fuel hp)]
  dsimp only
  rw [Solver.run_succ (lt_budget k (i := 2) (by omega)), Logged.result_bind_of_ok (third_pass k fuel hp)]
  rfl

noncomputable def exhausted : Solution Extended 1 :=
  { x := Line.point 0, value := .finite (3 / 4), status := .budgetExhausted, iterations := 1
    objectiveCount := 0, gradientCount := 0, multipliers := [], history := [.finite 3, .finite (3 / 4)] }

theorem solve_exhausted : ∃ objectiveCount gradientCount,
    (solve p (settings 1) Line.precision (fuel + 1) (Line.above 0) (Line.point 3)).result =
      .ok { exhausted with objectiveCount, gradientCount } := by
  obtain ⟨objectiveCount, gradientCount, hsolve⟩ :=
    solve_result Line.checkStart_above (runs 1 (fuel + 1) hp)
  refine ⟨objectiveCount, gradientCount, ?_⟩
  rw [hsolve]
  show (Solver.run (task 1 (fuel + 1) p) (1 + 1) start).result.map _ = _
  rw [Solver.run_succ Nat.zero_lt_one, Logged.result_bind_of_ok (start_pass 1 fuel hp)]
  dsimp only
  rw [Solver.run_of_not_lt (Nat.lt_irrefl 1), result_note_bind]
  rfl

end Bowl

end BoxDescent

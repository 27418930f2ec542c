import BoxDescent.Proofs.Solver.Point
import BoxDescent.Proofs.Exact.Accepted
import BoxDescent.Proofs.Exact.Quadratic

/-!
This module contains how the objective falls over a run in exact arithmetic (`solve_monotone`). A search
that takes a step knows the objective where it ends, and that is lower than before. A search that only puts
variables on their bounds hands on the value from before, whatever the objective is there
(`solve_hands_on`).
-/

namespace BoxDescent

open Extended

variable {n : Nat}

structure SearchResult.Lowers (r : SearchResult Extended n) (p : Problem Extended n) (x : Vector Extended n)
    (f : Extended) : Prop where
  le : r.value ≤ f
  -- A zero step puts variables on their bounds, but hands on the value from before.
  zeroStep : r.status = .zeroStep → r.value = f
  objective : r.status ≠ .zeroStep → p.objective x = .ok f → p.objective r.x = .ok r.value

namespace LineSearch

theorem search_lowers {problem : Problem Extended n} {parameters : Parameters Extended}
    (hobjective : ∀ y v, problem.objective (ofReals y) = .ok v → v = .posInf ∨ ∃ f, v = .finite f)
    (hgradient : ∀ y w, problem.gradient (ofReals y) = .ok w → ∃ g, w = ofReals g)
    (hp : parameters.IsExact) {maxNorm : Extended} (hm : IsLimit maxNorm) {a : ActiveSet Extended n}
    (ha : ∀ i : Fin n, a.fixed[i] = false → ∀ side, a.working.bound i side = a.bounds.bound i side)
    {x g p : Fin n → ℝ} (hx : a.bounds.Contains (ofReals x)) (f₀ : ℝ) (fuel : Nat) :
    (search fuel problem parameters a (ofReals x) (.finite f₀) (ofReals g) (ofReals p) maxNorm).Meets
      (fun _ => True) (fun _ => True) (·.Lowers problem (ofReals x) (.finite f₀)) := by
  obtain ⟨c₁, c₂, zero, hpositive⟩ := hp.arePositive
  apply (search_certified problem.tolerates_true (fun _ _ => trivial) hpositive hm
    (finiteOn_ofReals a.fixed g) (Or.inr ⟨f₀, rfl⟩) trivial fuel).imp
  intro s hs
  obtain hhalts | ⟨r, rate, t, hfrom, hr, ht⟩ := hs
  . refine ⟨?_, fun _ => hhalts.value, ?_⟩
    . rw [hhalts.value, finite_le]
    . intro hstatus hf
      rw [hhalts.value, (hhalts.unmoved hstatus).1]
      exact hf
  . obtain ⟨d, hfits⟩ := hfrom.fits hpositive hp.positive.epsilon hm ha hx
    have hregular := hfits.isRegular (hfrom.problem_eq ▸ hobjective) (hfrom.problem_eq ▸ hgradient)
    have hpoint : s.x = r.point (.finite t) := hfits.fixBlocking_eq ht.inRange ht.moved
    have hvalue := ht.verdict.hasValue
    obtain ⟨f, hf, hlt⟩ | hoff := hr.value_of_verdict hfrom.value ht.pos ht.verdict
    . refine ⟨?_, ?_, ?_⟩
      . rw [hf, finite_le]
        exact hlt.le
      . intro hstatus
        rw [ht.status] at hstatus
        cases hstatus
      . intro _ _
        rw [hpoint, ← hfrom.problem_eq]
        exact hvalue
    . exact absurd hoff hregular.not_fallsOff

end LineSearch

namespace Solver

variable {b : Bounds Extended n} {t : Task Extended n} {s : Iterate Extended n} {x₀ : Vector Extended n}

theorem Iterate.search_lowers (hproblem : t.problem.IsFiniteFrom x₀) (ht : t.IsExact) (hkeeps : s.Keeps b)
    (hs : s.IsExact) :
    (s.search t).Meets (fun _ => True) (fun _ => True) (·.Lowers t.problem s.x s.value) := by
  obtain ⟨x, hx⟩ := hs.x
  obtain ⟨f, hf⟩ := hs.value
  obtain ⟨_, _, g, p, _, hg, hdirection, _⟩ := hs.direction
  have hcontains := hkeeps.holds.contains
  have hbounds := hkeeps.holds.bounds
  rw [hx] at hcontains
  unfold Iterate.search
  rw [hx, hf, hg, hdirection]
  apply LineSearch.search_lowers hproblem.objective hproblem.gradient ht.parameters ht.maxNorm
  . rw [hbounds]
    exact hkeeps.holds.free
  . rw [hbounds]
    exact hcontains

structure Iterate.IsBelow (s : Iterate Extended n) (p : Problem Extended n) (f : Extended) : Prop where
  objective : p.objective s.x = .ok s.value
  le : s.value ≤ f

def Iterate.SnapsLevel (s : Iterate Extended n) (t : Task Extended n) : Prop :=
  ∀ r, (s.search t).result = .ok r → r.status = .zeroStep →
    t.problem.objective r.x = t.problem.objective s.x

theorem Iterate.search_isBelow (hproblem : t.problem.IsFiniteFrom x₀) (ht : t.IsExact)
    (hkeeps : s.Keeps b) (hs : s.IsExact) (hsnaps : s.SnapsLevel t)
    (hobjective : t.problem.objective s.x = .ok s.value) {r : SearchResult Extended n}
    (hr : (s.search t).result = .ok r) :
    t.problem.objective r.x = .ok r.value ∧ r.value ≤ s.value := by
  have hlowers := (Iterate.search_lowers hproblem ht hkeeps hs).value r hr
  refine ⟨?_, hlowers.le⟩
  by_cases hstatus : r.status = .zeroStep
  . rw [hsnaps r hr hstatus, hlowers.zeroStep hstatus]
    exact hobjective
  . exact hlowers.objective hstatus hobjective

theorem pass_isBelow (hproblem : t.problem.IsFiniteFrom x₀) (ht : t.IsExact) (hkeeps : s.Keeps b)
    (hs : s.IsExact) (hsnaps : s.SnapsLevel t) {f : Extended} (hbelow : s.IsBelow t.problem f) :
    (s.pass t).Meets (fun _ => True) (fun _ => True) fun
      | .inl s' => s'.IsBelow t.problem f
      | .inr solution => t.problem.objective solution.x = .ok solution.value ∧ solution.value ≤ f := by
  apply (pass_point t s).imp
  intro next hnext
  cases next with
  | inl s' =>
    obtain ⟨r, hr, hpoint⟩ := hnext
    obtain ⟨hobjective, hle⟩ := Iterate.search_isBelow hproblem ht hkeeps hs hsnaps hbelow.objective hr
    constructor
    . rw [hpoint.x_eq, hpoint.value_eq]
      exact hobjective
    . rw [hpoint.value_eq]
      exact Scalar.Lawful.le_trans hle hbelow.le
  | inr solution =>
    obtain ⟨r, hr, hx, hvalue⟩ := hnext
    obtain ⟨hobjective, hle⟩ := Iterate.search_isBelow hproblem ht hkeeps hs hsnaps hbelow.objective hr
    -- The objective is evaluated once more, and its value is the one of the search.
    rw [hvalue, Except.ok.injEq] at hobjective
    constructor
    . rw [hx]
      exact hvalue
    . rw [hobjective]
      exact Scalar.Lawful.le_trans hle hbelow.le

section Run

variable {s₀ : Iterate Extended n} (hproblem : t.problem.IsFiniteFrom x₀) (ht : t.IsExact)
  (hc : b.crossed = false) (hb : b.AllFinite) (hkeeps : s₀.Keeps b) (hs₀ : s₀.IsExact)
  (hsnaps : ∀ s, Visited t s₀ s → s.SnapsLevel t) {f : Extended} (hbelow : s₀.IsBelow t.problem f)
include hproblem ht hc hb hkeeps hs₀ hsnaps hbelow

theorem visited_isBelow (h : Visited t s₀ s) : s.IsBelow t.problem f := by
  induction h with
  | start _ => exact hbelow
  | pass hs hpass _ ih =>
    obtain ⟨hskeeps, hexact⟩ := visited_exact (tolerates_unsound hproblem) ht hc hb hkeeps hs₀ hs
    exact (pass_isBelow hproblem ht hskeeps hexact (hsnaps _ hs) ih).value _ hpass

theorem run_isBelow (fuel : Nat) :
    (run t fuel s₀).Meets (fun _ => True) (fun _ => True) fun solution =>
      t.problem.objective solution.x = .ok solution.value ∧ solution.value ≤ f := by
  -- The invariant knows that the run searches from the iterate, as `hsnaps` asks for that.
  apply run_meets (fun _ => trivial) trivial
    (I := fun s => s.IsBelow t.problem f ∧ (s.iterations < t.settings.budget → Visited t s₀ s))
  . intro s hs hlt
    have hvisited := hs.2 hlt
    obtain ⟨hskeeps, hexact⟩ := visited_exact (tolerates_unsound hproblem) ht hc hb hkeeps hs₀ hvisited
    apply ((pass_isBelow hproblem ht hskeeps hexact (hsnaps s hvisited) hs.1).withValue
      (Logged.meets_self _)).imp
    intro next hnext
    cases next with
    | inl s' => exact ⟨hnext.1, hvisited.pass hnext.2⟩
    | inr solution => exact hnext.1
  . intro s hs _
    apply (solution_point .budgetExhausted).imp
    intro solution hsolution
    rw [hsolution.1, hsolution.2.1]
    exact ⟨hs.1.objective, hs.1.le⟩
  . exact ⟨hbelow, Visited.start⟩

end Run

end Solver

/-- Every search of a run in exact arithmetic ends with a value that is not larger than the one it starts
with, and the value of a solution that has converged is the objective there. If putting variables on their
bounds never changes the objective, the value of a search is always the objective where it ends, and every
solution has the objective as its value, which is not larger than that of the start. -/
theorem solve_monotone {x : Grid Extended} {lower upper : Option (Grid Extended)}
    {s : Input.Start Extended} (hstart : Input.start x lower upper = .ok s)
    (hcheck : s.bounds.checkStart s.x = .ok ()) (hfinite : ∀ i : Fin s.size, Scalar.isFinite s.x[i] = true)
    {problem : Problem Extended s.size} (hproblem : problem.IsFiniteFrom s.x)
    {settings : Settings Extended} (hsettings : settings.Valid) {epsilon zero : ℝ}
    (hepsilon : 0 < epsilon) (hzero : 0 < zero) (searchFuel : Nat) :
    (∀ t r, SearchesTo problem settings { epsilon := .finite epsilon, zero := .finite zero } searchFuel
      s.bounds s.x t r → r.Lowers problem t.x t.value) ∧
    (∀ solution, (solve problem settings { epsilon := .finite epsilon, zero := .finite zero } searchFuel
      s.bounds s.x).result = .ok solution → solution.status = .converged →
      problem.objective solution.x = .ok solution.value) ∧
    ((∀ t r, SearchesTo problem settings { epsilon := .finite epsilon, zero := .finite zero } searchFuel
        s.bounds s.x t r → r.status = .zeroStep → problem.objective r.x = problem.objective t.x) →
      (∀ t r, SearchesTo problem settings { epsilon := .finite epsilon, zero := .finite zero } searchFuel
        s.bounds s.x t r → problem.objective t.x = .ok t.value ∧ problem.objective r.x = .ok r.value ∧
        r.value ≤ t.value) ∧
      ∀ solution, (solve problem settings { epsilon := .finite epsilon, zero := .finite zero } searchFuel
        s.bounds s.x).result = .ok solution → problem.objective solution.x = .ok solution.value ∧
        ∃ f, problem.objective s.x = .ok f ∧ solution.value ≤ f) := by
  have hb := Input.allFinite_of_start hstart
  obtain ⟨hc, hreached⟩ := Bounds.checkStart_eq_ok_iff.mp hcheck
  have hcontains := Bounds.contains_of_not_reached hreached
  have hseparates := Bounds.separates_of_not_reached hb hreached
  obtain ⟨x₀, hx₀⟩ := exists_ofReals_iff.mpr hfinite
  have hE := tolerates_unsound hproblem
  have hruns : ∀ t s₀, Runs problem settings { epsilon := .finite epsilon, zero := .finite zero }
      searchFuel s.bounds s.x t s₀ → t.problem = problem ∧ t.IsExact ∧ s₀.Keeps s.bounds ∧ s₀.IsExact ∧
        ∃ f, problem.objective s.x = .ok (.finite f) ∧ s₀.IsBelow problem (.finite f) := by
    intro t s₀ hrun
    obtain ⟨value, grad, hobjective, hgradient, rfl, rfl⟩ := hrun
    obtain ⟨f, rfl⟩ := hproblem.start value hobjective
    rw [hx₀] at hgradient
    obtain ⟨g, rfl⟩ := hproblem.gradient x₀ grad hgradient
    have hexact := Solver.start_exact s.bounds x₀ g f
    rw [← hx₀] at hexact
    exact ⟨rfl, Solver.taskIsExact problem hsettings hepsilon hzero searchFuel g,
      Solver.keeps_start hcontains hseparates _ _, hexact, f, hobjective, hobjective, finite_le.mpr le_rfl⟩
  refine ⟨?_, fun solution => solve_converged, ?_⟩
  . intro t r hsearches
    obtain ⟨task, s₀, hrun, hvisited, hr⟩ := hsearches
    obtain ⟨rfl, ht, hkeeps, hs₀, _⟩ := hruns task s₀ hrun
    obtain ⟨htkeeps, hexact⟩ := Solver.visited_exact hE ht hc hb hkeeps hs₀ hvisited
    exact (Solver.Iterate.search_lowers hproblem ht htkeeps hexact).value r hr
  . intro hlevel
    have hsnaps : ∀ task s₀, Runs problem settings { epsilon := .finite epsilon, zero := .finite zero }
        searchFuel s.bounds s.x task s₀ → ∀ t, Solver.Visited task s₀ t → t.SnapsLevel task := by
      intro task s₀ hrun t hvisited r hr hstatus
      obtain ⟨rfl, _⟩ := hruns task s₀ hrun
      exact hlevel t r ⟨task, s₀, hrun, hvisited, hr⟩ hstatus
    constructor
    . intro t r hsearches
      obtain ⟨task, s₀, hrun, hvisited, hr⟩ := hsearches
      have hlevels := hsnaps task s₀ hrun
      obtain ⟨rfl, ht, hkeeps, hs₀, f, _, hbelow⟩ := hruns task s₀ hrun
      obtain ⟨htkeeps, hexact⟩ := Solver.visited_exact hE ht hc hb hkeeps hs₀ hvisited
      have htbelow := Solver.visited_isBelow hproblem ht hc hb hkeeps hs₀ hlevels hbelow hvisited
      exact ⟨htbelow.objective, Solver.Iterate.search_isBelow hproblem ht htkeeps hexact (hlevels t hvisited)
        htbelow.objective hr⟩
    . intro solution hsolution
      obtain ⟨task, s₀, found, hrun, hfound, hx, hvalue, _⟩ := solve_point.value solution hsolution
      have hlevels := hsnaps task s₀ hrun
      obtain ⟨rfl, ht, hkeeps, hs₀, f, hf, hbelow⟩ := hruns task s₀ hrun
      obtain ⟨hobjective, hle⟩ :=
        (Solver.run_isBelow hproblem ht hc hb hkeeps hs₀ hlevels hbelow _).value found hfound
      rw [hx, hvalue]
      exact ⟨hobjective, _, hf, hle⟩

theorem solve_monotone_bowl :
    (∃ t r, SearchesTo Bowl.problem (Bowl.settings 3) Line.precision 100 (Line.above 0) (Line.point 3) t r ∧
      r.status = .accepted ∧ r.Lowers Bowl.problem t.x t.value) ∧
    (∀ t r, SearchesTo Bowl.problem (Bowl.settings 3) Line.precision 100 (Line.above 0) (Line.point 3) t r →
      Bowl.problem.objective t.x = .ok t.value ∧ Bowl.problem.objective r.x = .ok r.value ∧
        r.value ≤ t.value) ∧
    ∃ solution, (solve Bowl.problem (Bowl.settings 3) Line.precision 100 (Line.above 0)
      (Line.point 3)).result = .ok solution ∧ solution.status = .converged ∧ solution.iterations = 3 ∧
      Bowl.problem.objective solution.x = .ok solution.value ∧
      ∃ f, Bowl.problem.objective (Line.point 3) = .ok f ∧ solution.value ≤ f := by
  have hmonotone := solve_monotone Line.start_input Line.checkStart_above (Line.isFinite_point 3)
    (Bowl.isParabola.isFiniteFrom 3) (Bowl.settings_valid three_pos) Line.epsilon_pos Line.zero_pos 100
  have hlevel : ∀ t r, SearchesTo Bowl.problem (Bowl.settings 3) Line.precision 100 (Line.above 0)
      (Line.point 3) t r → r.status = .zeroStep →
      Bowl.problem.objective r.x = Bowl.problem.objective t.x := by
    intro t r hsearches hstatus
    obtain ⟨_, _, hruns, hvisited, hr⟩ := hsearches
    obtain ⟨_, hr', haccepted⟩ := Bowl.exists_accepted 3 99 Bowl.isParabola hruns hvisited
    rw [hr, Except.ok.injEq] at hr'
    subst hr'
    rw [hstatus] at haccepted
    cases haccepted
  have hthird : SearchesTo Bowl.problem (Bowl.settings 3) Line.precision 100 (Line.above 0) (Line.point 3)
      Bowl.third (Line.stepped (Line.above 0) 1 0 (3 / 4) (-1 / 2)) :=
    ⟨_, _, Bowl.runs 3 100 Bowl.isParabola, Bowl.visited_third 3 99 Bowl.isParabola le_rfl,
      Bowl.third_search 3 99 Bowl.isParabola⟩
  obtain ⟨hlowers, _, hsnaps⟩ := hmonotone
  obtain ⟨hsearches, hsolution⟩ := hsnaps hlevel
  obtain ⟨_, _, hfound⟩ := Bowl.solve_found 3 99 Bowl.isParabola le_rfl
  obtain ⟨hobjective, hle⟩ := hsolution _ hfound
  exact ⟨⟨_, _, hthird, rfl, hlowers _ _ hthird⟩, hsearches, _, hfound, rfl, rfl, hobjective, hle⟩

namespace Steep

noncomputable def objective (m : ℝ) : Quadratic Extended 1 :=
  .ofReals (fun _ _ => 400000000) (fun _ => -(400000000 * m)) (200000000 * (m * m))

theorem isParabola (m : ℝ) : (objective m).problem.IsParabola 400000000 m := by
  apply Quadratic.isParabola rfl
  norm_num

theorem searchesTo {m : ℝ} (hm : m ≤ 2) (fuel : Nat) :
    SearchesTo (objective m).problem .default Line.precision fuel (Line.above 0) (Line.point 3) (start m)
      (result m) := by
  have hbudget : 0 < (Settings.default : Settings Extended).budget := by
    show 0 < 200
    omega
  exact ⟨_, _, runs (isParabola m) fuel, .start hbudget, start_search _ hm fuel⟩

end Steep

theorem solve_hands_on :
    Input.start (.ofArray #[.finite 3]) (some (.ofArray #[.finite 0])) none = .ok Line.input ∧
      Line.input.bounds.checkStart Line.input.x = .ok () ∧
      (Settings.default : Settings Extended).Valid ∧
      (∀ searchFuel, ∃ t r, SearchesTo (Steep.objective 1).problem .default Line.precision searchFuel
        Line.input.bounds Line.input.x t r ∧ r.value = .finite 800000000 ∧
        (Steep.objective 1).problem.objective r.x = .ok (.finite 200000000)) ∧
      ∀ searchFuel, ∃ t r, SearchesTo (Steep.objective 2).problem .default Line.precision searchFuel
        Line.input.bounds Line.input.x t r ∧
        (Steep.objective 2).problem.objective t.x = .ok (.finite 200000000) ∧
        (Steep.objective 2).problem.objective r.x = .ok (.finite 800000000) := by
  refine ⟨Line.start_input, Line.checkStart_above, Settings.default_valid, ?_, ?_⟩
  . intro searchFuel
    refine ⟨_, _, Steep.searchesTo one_le_two searchFuel, ?_, ?_⟩
    . unfold Steep.result Line.snapped
      norm_num
    . refine ((Steep.isParabola 1).objective 0).trans ?_
      norm_num
  . intro searchFuel
    refine ⟨_, _, Steep.searchesTo le_rfl searchFuel, ?_, ?_⟩
    . refine ((Steep.isParabola 2).objective 3).trans ?_
      norm_num
    . refine ((Steep.isParabola 2).objective 0).trans ?_
      norm_num

end BoxDescent

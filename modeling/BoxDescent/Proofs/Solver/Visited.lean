import BoxDescent.Solver
import BoxDescent.Proofs.Problem

/-!
This module contains the iterates that a run of the solver searches from. `Visited` is the run seen as
steps of `Iterate.pass`, `run_meets` is the rule that carries an invariant of these steps through the run.
-/

namespace BoxDescent

namespace Solver

variable {α : Type} [Scalar α] {n : Nat}

theorem run_zero {t : Task α n} {s : Iterate α n} (h : s.iterations < t.settings.budget) :
    run t 0 s = .fail .outOfFuel := by
  unfold run
  exact if_pos h

theorem run_succ {t : Task α n} {s : Iterate α n} (h : s.iterations < t.settings.budget) (fuel : Nat) :
    run t (fuel + 1) s = s.pass t >>= fun
      | .inl s' => run t fuel s'
      | .inr solution => pure solution := by
  conv => lhs; unfold run
  exact if_pos h

theorem run_of_not_lt {t : Task α n} {s : Iterate α n} (h : ¬s.iterations < t.settings.budget)
    (fuel : Nat) : run t fuel s =
      note .budgetExhausted >>= fun _ => Logged.ofExcept (s.solution .budgetExhausted) := by
  unfold run
  exact if_neg h

/-- The run that starts at `s₀` searches from `s`. -/
inductive Visited (t : Task α n) (s₀ : Iterate α n) : Iterate α n → Prop where
  | start : s₀.iterations < t.settings.budget → Visited t s₀ s₀
  | pass {s s' : Iterate α n} : Visited t s₀ s → (s.pass t).result = .ok (.inl s') →
      s'.iterations < t.settings.budget → Visited t s₀ s'

theorem Visited.iterations_lt {t : Task α n} {s₀ s : Iterate α n} (h : Visited t s₀ s) :
    s.iterations < t.settings.budget := by
  cases h with
  | start hs => exact hs
  | pass _ _ hs => exact hs

theorem Visited.invariant {t : Task α n} {s₀ s : Iterate α n} {I : Iterate α n → Prop} (h₀ : I s₀)
    (step : ∀ s s', I s → s.iterations < t.settings.budget → (s.pass t).result = .ok (.inl s') → I s')
    (h : Visited t s₀ s) : I s := by
  induction h with
  | start _ => exact h₀
  | pass hs hpass _ ih => exact step _ _ ih hs.iterations_lt hpass

theorem run_meets {L : Event α n → Prop} {E : Error α → Prop} {Q : Solution α n → Prop}
    {t : Task α n} {I : Iterate α n → Prop} (hl : ∀ m, L (.note m)) (hfuel : E .outOfFuel)
    (hpass : ∀ s, I s → s.iterations < t.settings.budget → (s.pass t).Meets L E fun
      | .inl s' => I s'
      | .inr solution => Q solution)
    (hend : ∀ s, I s → ¬s.iterations < t.settings.budget →
      (Logged.ofExcept (s.solution .budgetExhausted) : Run α n _).Meets L E Q) (fuel : Nat) :
    ∀ s, I s → (run t fuel s).Meets L E Q := by
  induction fuel with
  | zero =>
    intro s hs
    by_cases hlt : s.iterations < t.settings.budget
    . rw [run_zero hlt]
      exact Logged.meets_fail hfuel
    . rw [run_of_not_lt hlt]
      exact meets_note_bind (hl _) (hend s hs hlt)
  | succ fuel ih =>
    intro s hs
    by_cases hlt : s.iterations < t.settings.budget
    . rw [run_succ hlt]
      apply Logged.Meets.bind (hpass s hs hlt)
      intro next hnext
      cases next with
      | inl s' => exact ih s' hnext
      | inr solution => exact Logged.meets_pure hnext
    . rw [run_of_not_lt hlt]
      exact meets_note_bind (hl _) (hend s hs hlt)

theorem Visited.run_ok {t : Task α n} {s₀ s : Iterate α n} (h : Visited t s₀ s) {fuel : Nat}
    {solution : Solution α n} (hrun : (run t fuel s₀).result = .ok solution) :
    ∃ fuel', (run t fuel' s).result = .ok solution := by
  induction h with
  | start _ => exact ⟨fuel, hrun⟩
  | pass hs hpass _ ih =>
    obtain ⟨fuel', hfuel'⟩ := ih
    -- Without fuel the run would not have found anything from the iterate before.
    cases fuel' with
    | zero =>
      rw [run_zero hs.iterations_lt] at hfuel'
      cases hfuel'
    | succ fuel' =>
      rw [run_succ hs.iterations_lt, Logged.result_bind, hpass] at hfuel'
      exact ⟨fuel', hfuel'⟩

theorem Visited.pass_ne_error {t : Task α n} {s₀ s : Iterate α n} (h : Visited t s₀ s) {fuel : Nat}
    {solution : Solution α n} (hrun : (run t fuel s₀).result = .ok solution) (e : Error α) :
    (s.pass t).result ≠ .error e := by
  intro he
  obtain ⟨fuel', hfuel'⟩ := h.run_ok hrun
  cases fuel' with
  | zero =>
    rw [run_zero h.iterations_lt] at hfuel'
    cases hfuel'
  | succ fuel' =>
    rw [run_succ h.iterations_lt, Logged.result_bind, he] at hfuel'
    cases hfuel'

structure Iterate.Updates (t : Task α n) (s : Iterate α n) (r : SearchResult α n) (grad : Vector α n)
    (f : Factor α n) : Prop where
  search : (s.search t).result = .ok r
  status : r.status ≠ .zeroStep
  displaced : (displacementConverged t.precision r.x s.x).result = .ok false
  gradient : (t.problem.evalGradient r.x).result = .ok grad
  unconverged : (s.progress r grad).converged t.precision.zero = false
  curved : (s.progress r grad).isCurved t.precision.zero r.activeSet.free = true
  factor : updateFactor t.precision.zero s.factor r.activeSet.fixed (s.progress r grad).gradChange
    (s.progress r grad).curvature s.grad r.slope = .ok f

theorem report_result (p : Progress α n) (zero : α) (iteration : Nat) :
    (p.report zero iteration).result = .ok () := by
  unfold Progress.report
  dsimp only
  split
  . split
    . rfl
    . rfl
  . split
    . rfl
    . rfl

theorem Iterate.Updates.pass_result {t : Task α n} {s : Iterate α n} {r : SearchResult α n}
    {grad : Vector α n} {f : Factor α n} (h : s.Updates t r grad f) :
    (s.pass t).result = (Iterate.redirect { s.move r grad with factor := f }).result.map .inl := by
  unfold Iterate.pass
  rw [result_note_bind, Logged.result_bind_of_ok h.search, if_neg h.status]
  unfold Iterate.afterStep
  dsimp only
  rw [Logged.result_bind_of_ok h.displaced, Logged.result_bind_of_ok h.gradient,
    Logged.result_bind_of_ok (report_result _ _ _), h.unconverged, h.curved, Bool.or_false,
    if_neg Bool.false_ne_true, if_pos rfl, h.factor, Logged.result_bind_of_ok (Logged.result_ofExcept _),
    Logged.result_bind]
  cases (Iterate.redirect { s.move r grad with factor := f }).result with
  | error e => rfl
  | ok next => rfl

end Solver

section Solve

variable {α : Type} [Scalar α] {n : Nat} (problem : Problem α n) (settings : Settings α)
  (precision : Precision α) (searchFuel : Nat) (b : Bounds α n) (x : Vector α n)

def Runs (t : Solver.Task α n) (s₀ : Solver.Iterate α n) : Prop :=
  ∃ value grad, problem.objective x = .ok value ∧ problem.gradient x = .ok grad ∧
    t = { problem, settings, precision, searchFuel, maxNorm := Solver.maxNorm settings n grad } ∧
    s₀ = Solver.start b x value grad

/-- The run looks for a step from `s`. -/
def Searches (s : Solver.Iterate α n) : Prop :=
  ∃ t s₀, Runs problem settings precision searchFuel b x t s₀ ∧ Solver.Visited t s₀ s

def UpdatesFactor (s : Solver.Iterate α n) (r : SearchResult α n) (f : Factor α n) : Prop :=
  ∃ t s₀ grad, Runs problem settings precision searchFuel b x t s₀ ∧ Solver.Visited t s₀ s ∧
    s.Updates t r grad f

variable {problem settings precision searchFuel b x}

theorem Runs.unique {t t' : Solver.Task α n} {s₀ s₀' : Solver.Iterate α n}
    (h : Runs problem settings precision searchFuel b x t s₀)
    (h' : Runs problem settings precision searchFuel b x t' s₀') : t' = t ∧ s₀' = s₀ := by
  obtain ⟨value, grad, hobjective, hgradient, rfl, rfl⟩ := h
  obtain ⟨value', grad', hobjective', hgradient', rfl, rfl⟩ := h'
  rw [hobjective, Except.ok.injEq] at hobjective'
  rw [hgradient, Except.ok.injEq] at hgradient'
  subst hobjective' hgradient'
  exact ⟨rfl, rfl⟩

theorem solve_result (hcheck : b.checkStart x = .ok ()) {t : Solver.Task α n} {s₀ : Solver.Iterate α n}
    (h : Runs problem settings precision searchFuel b x t s₀) : ∃ objectiveCount gradientCount,
      (solve problem settings precision searchFuel b x).result =
        (Solver.run t ((n + 1) * settings.budget) s₀).result.map
          fun found => { found with objectiveCount, gradientCount } := by
  obtain ⟨value, grad, hobjective, hgradient, rfl, rfl⟩ := h
  have hstart : (Solver.startGradient problem settings x value).result = .ok grad := by
    unfold Solver.startGradient
    rw [Logged.result_bind]
    unfold Logged.attempt
    dsimp only
    rw [Problem.eval_of_gradient hgradient]
    rfl
  unfold solve
  rw [hcheck, Logged.result_bind]
  show ∃ _ _, Logged.result (_ >>= _) = _
  rw [Logged.result_bind]
  unfold Logged.listen
  dsimp only
  rw [Logged.result_bind, Problem.eval_of_objective hobjective]
  dsimp only [Except.bind]
  rw [Logged.result_bind, hstart]
  dsimp only [Except.bind]
  generalize Logged.result (Solver.run (α := α) _ _ _) = result
  cases result with
  | error e => exact ⟨0, 0, rfl⟩
  | ok found => exact ⟨_, _, rfl⟩

theorem solve_error_iff (hcheck : b.checkStart x = .ok ()) {t : Solver.Task α n}
    {s₀ : Solver.Iterate α n} (h : Runs problem settings precision searchFuel b x t s₀)
    (e : Error α) : (solve problem settings precision searchFuel b x).result = .error e ↔
      (Solver.run t ((n + 1) * settings.budget) s₀).result = .error e := by
  obtain ⟨_, _, hsolve⟩ := solve_result hcheck h
  rw [hsolve]
  cases (Solver.run t ((n + 1) * settings.budget) s₀).result with
  | error e' => exact Iff.rfl
  | ok found => exact ⟨nofun, nofun⟩

theorem exists_run_ok (hcheck : b.checkStart x = .ok ()) {t : Solver.Task α n} {s₀ : Solver.Iterate α n}
    (h : Runs problem settings precision searchFuel b x t s₀)
    (hsolution : ∃ solution, (solve problem settings precision searchFuel b x).result = .ok solution) :
    ∃ solution, (Solver.run t ((n + 1) * settings.budget) s₀).result = .ok solution := by
  obtain ⟨solution, hsolution⟩ := hsolution
  cases hresult : (Solver.run t ((n + 1) * settings.budget) s₀).result with
  | ok solution => exact ⟨solution, rfl⟩
  | error e =>
    rw [(solve_error_iff hcheck h e).mpr hresult] at hsolution
    cases hsolution

end Solve

end BoxDescent

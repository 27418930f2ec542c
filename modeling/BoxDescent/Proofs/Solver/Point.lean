import BoxDescent.Proofs.Solver.Round

/-!
This module contains where the points and values of a run come from: a round goes on from the result of
its search, or ends with that point and the objective there (`pass_point`). So a solution lies where the
last search ended (`solve_point`).
-/

namespace BoxDescent

variable {α : Type} [Scalar α] {n : Nat}

namespace Solver

/-- The iterate is at the point `x`, with the value `value` of the objective. -/
structure Iterate.IsAt (s : Iterate α n) (x : Vector α n) (value : α) : Prop where
  x_eq : s.x = x
  value_eq : s.value = value

structure Iterate.Arrives (s : Iterate α n) (x : Vector α n) (value : α) : Prop extends s.IsAt x value where
  direction : s.factor.direction s.grad s.activeSet.fixed = .ok s.direction

theorem Iterate.Redirects.arrives {s s' : Iterate α n} (h : s.Redirects s') : s'.Arrives s.x s.value := by
  obtain ⟨_, hdirection, rfl⟩ := h
  exact ⟨⟨rfl, rfl⟩, hdirection⟩

theorem solution_point {s : Iterate α n} (status : SolveStatus) :
    (Logged.ofExcept (s.solution status) : Run α n _).Meets (fun _ => True) (fun _ => True)
      fun solution => solution.x = s.x ∧ solution.value = s.value ∧ solution.status = status := by
  refine Logged.meets_ofExcept (fun _ _ => trivial) ?_
  intro solution hsolution
  obtain ⟨_, _, rfl⟩ := solution_eq hsolution
  exact ⟨rfl, rfl, rfl⟩

theorem pass_point (t : Task α n) (s : Iterate α n) :
    (s.pass t).Meets (fun _ => True) (fun _ => True) fun
      | .inl s' => ∃ r, (s.search t).result = .ok r ∧ s'.Arrives r.x r.value
      | .inr solution => ∃ r, (s.search t).result = .ok r ∧ solution.x = r.x ∧
          t.problem.objective r.x = .ok solution.value := by
  refine ⟨fun _ _ => trivial, fun _ _ => trivial, ?_⟩
  intro next hpass
  cases pass_outcome hpass with
  | snap hsearch _ _ hredirects => exact ⟨_, hsearch, hredirects.arrives⟩
  | step hsteps _ _ hredirects => exact ⟨_, hsteps.search, hredirects.arrives⟩
  | release hsteps _ _ _ hredirects => exact ⟨_, hsteps.search, hredirects.arrives⟩
  | finish hsteps _ _ _ hvalue _ => exact ⟨_, hsteps.search, rfl, hvalue⟩

theorem startGradient_eq {problem : Problem α n} {E : Error α → Prop} (hE : problem.Tolerates E)
    (hempty : n = 0 → E (.fault .mismatch)) (settings : Settings α) (x : Vector α n) (value : α) :
    (startGradient problem settings x value).Meets (fun _ => True) E
      fun g => problem.gradient x = .ok g := by
  unfold startGradient
  apply Logged.Meets.bind (hE.evalGradient x).attempt
  intro outcome houtcome
  split
  . next g =>
    apply meets_note_bind trivial
    exact Logged.meets_pure (houtcome.1 g rfl)
  . next g =>
    apply meets_note_bind trivial
    apply meets_note_bind trivial
    split
    . next hn =>
      apply meets_note_bind trivial
      apply meets_note_bind trivial
      exact Logged.meets_fail (hempty hn)
    . exact Logged.meets_fail (houtcome.2 _ rfl)
  . exact Logged.meets_fail (houtcome.2 _ rfl)

end Solver

variable {problem : Problem α n} {settings : Settings α} {precision : Precision α} {searchFuel : Nat}
  {b : Bounds α n} {x : Vector α n}

variable (problem settings precision searchFuel b x) in
def SearchesTo (s : Solver.Iterate α n) (r : SearchResult α n) : Prop :=
  ∃ t s₀, Runs problem settings precision searchFuel b x t s₀ ∧ Solver.Visited t s₀ s ∧
    (s.search t).result = .ok r

theorem solve_found {solution : Solution α n}
    (h : (solve problem settings precision searchFuel b x).result = .ok solution) :
    ∃ t s₀ found, Runs problem settings precision searchFuel b x t s₀ ∧
      (Solver.run t ((n + 1) * settings.budget) s₀).result = .ok found ∧
      ∃ objectiveCount gradientCount, solution = { found with objectiveCount, gradientCount } := by
  have hrun := Logged.Meets.bind (problem.tolerates_true.evalObjective x) fun value hvalue =>
    Logged.Meets.bind (Solver.startGradient_eq problem.tolerates_true (fun _ => trivial) settings x value)
      fun grad hgrad => (Logged.meets_self (Solver.run
        { problem, settings, precision, searchFuel, maxNorm := Solver.maxNorm settings n grad }
        ((n + 1) * settings.budget) (Solver.start b x value grad))).imp
        (Q := fun found => ∃ t s₀, Runs problem settings precision searchFuel b x t s₀ ∧
          (Solver.run t ((n + 1) * settings.budget) s₀).result = .ok found)
        fun found hfound => ⟨_, _, ⟨value, grad, hvalue, hgrad, rfl, rfl⟩, hfound⟩
  unfold solve at h
  obtain ⟨_, _, h⟩ := Logged.exists_of_bind_ok h
  obtain ⟨counted, hcounted, h⟩ := Logged.exists_of_bind_ok h
  obtain ⟨t, s₀, hruns, hfound⟩ := hrun.listen.value counted hcounted
  cases h
  exact ⟨t, s₀, counted.1, hruns, hfound, _, _, rfl⟩

theorem solve_point : (solve problem settings precision searchFuel b x).Meets (fun _ => True)
    (fun _ => True) fun solution => ∃ t s₀ found,
      Runs problem settings precision searchFuel b x t s₀ ∧
      (Solver.run t ((n + 1) * settings.budget) s₀).result = .ok found ∧ solution.x = found.x ∧
      solution.value = found.value ∧ solution.status = found.status := by
  apply (Logged.meets_self _).imp
  intro solution hsolution
  obtain ⟨t, s₀, found, hruns, hfound, _, _, rfl⟩ := solve_found hsolution
  exact ⟨t, s₀, found, hruns, hfound, rfl, rfl, rfl⟩

theorem started_of_outOfFuel
    (h : (solve problem settings precision searchFuel b x).result = .error .outOfFuel) :
    b.checkStart x = .ok () ∧ ∃ value grad, problem.objective x = .ok value ∧
      problem.gradient x = .ok grad := by
  apply Classical.byContradiction
  intro hnot
  have hE : problem.Tolerates (· ≠ .outOfFuel) := ⟨fun _ _ _ => nofun, fun _ _ _ => nofun⟩
  have hsolve : (solve problem settings precision searchFuel b x).Meets (fun _ => True) (· ≠ .outOfFuel)
      fun _ => True := by
    unfold solve
    apply Logged.Meets.bind (P := fun _ => b.checkStart x = .ok ()) (Logged.meets_ofExcept ?_ ?_)
    . intro _ hcheck
      have hrun := Logged.Meets.bind (hE.evalObjective x) fun value hvalue =>
        (Logged.Meets.bind (Solver.startGradient_eq hE (fun _ => nofun) settings x value)
          fun grad hgrad => absurd ⟨hcheck, value, grad, hvalue, hgrad⟩ hnot :
            (_ >>= fun grad => Solver.run
              { problem, settings, precision, searchFuel, maxNorm := Solver.maxNorm settings n grad }
              ((n + 1) * settings.budget) (Solver.start b x value grad)).Meets _ _ fun _ => True)
      apply Logged.Meets.bind hrun.listen
      intro counted _
      exact Logged.meets_pure trivial
    . intro e he
      cases hcheck : b.checkStart x with
      | error r =>
        rw [hcheck] at he
        cases he
        nofun
      | ok _ =>
        rw [hcheck] at he
        cases he
    . intro _ hok
      cases hcheck : b.checkStart x with
      | error r =>
        rw [hcheck] at hok
        cases hok
      | ok _ => rfl
  exact hsolve.error _ h rfl

theorem solve_converged {solution : Solution α n}
    (hsolution : (solve problem settings precision searchFuel b x).result = .ok solution)
    (hstatus : solution.status = .converged) : problem.objective solution.x = .ok solution.value := by
  obtain ⟨t, s₀, found, hruns, hfound, hx, hvalue, hfoundStatus⟩ := solve_point.value solution hsolution
  have hrun := Solver.run_meets (L := fun _ => True) (E := fun _ => True) (t := t) (I := fun _ => True)
    (Q := fun solution => solution.status = .converged → t.problem.objective solution.x = .ok solution.value)
    (fun _ => trivial) trivial
    (fun s _ _ => (Solver.pass_point t s).imp fun next hnext => by
      cases next with
      | inl s' => trivial
      | inr solution =>
        obtain ⟨r, _, hx, hvalue⟩ := hnext
        intro _
        rw [hx]
        exact hvalue)
    (fun s _ _ => (Solver.solution_point .budgetExhausted).imp fun solution h hconverged => by
      rw [h.2.2] at hconverged
      cases hconverged)
    ((n + 1) * settings.budget) s₀ trivial
  obtain ⟨_, _, _, _, rfl, _⟩ := hruns
  rw [hx, hvalue]
  exact hrun.value found hfound (hfoundStatus ▸ hstatus)

end BoxDescent

import BoxDescent.Minimize
import BoxDescent.Proofs.Solver.Budget

/-!
This module contains what the front end makes of the solver. `Solves` are the runs of the solver that it
makes, one after the other, and `minimize_solves` says that its answer and its log are theirs. A run whose
start was accepted ends at a point where the bounds are apart (`solve_separates`), and not in a refusal
(`solve_error`).
-/

namespace BoxDescent

namespace Solution

variable {α : Type} {n : Nat} {s : Solution α n}

theorem converged_eq_true_iff : s.converged = true ↔ s.status = .converged := by
  unfold converged
  cases s.status with
  | converged => exact ⟨fun _ => rfl, fun _ => rfl⟩
  | budgetExhausted => exact ⟨nofun, nofun⟩

theorem converged_eq_false_iff : s.converged = false ↔ s.status = .budgetExhausted := by
  unfold converged
  cases s.status with
  | converged => exact ⟨nofun, nofun⟩
  | budgetExhausted => exact ⟨fun _ => rfl, fun _ => rfl⟩

end Solution

variable {α : Type} [Scalar α] {n : Nat}

section Run

variable [Scalar.Lawful α] {problem : Problem α n} {settings : Settings α} {precision : Precision α}
  {searchFuel : Nat} {b : Bounds α n} {x : Vector α n} (hb : b.AllFinite)
  (hcheck : b.checkStart x = .ok ()) (hp : precision.Positive)
include hb hcheck hp

theorem solve_error {e : Error α}
    (h : (solve problem settings precision searchFuel b x).result = .error e) :
    e.isOfSearch = true ∨ e.isPlain = true := by
  have hE : problem.Tolerates fun e => e.isOfSearch = true ∨ e.isPlain = true :=
    ⟨fun _ _ _ => .inl rfl, fun _ _ _ => .inl rfl⟩
  have herror : ∀ {t : Solver.Task α n} {s₀ : Solver.Iterate α n},
      Runs problem settings precision searchFuel b x t s₀ → ∀ e,
        (Solver.run t ((n + 1) * settings.budget) s₀).result = .error e →
          e.isOfSearch = true ∨ e.isPlain = true := by
    intro t s₀ hruns e he
    obtain ⟨s, _, hkeeps, herror⟩ := hruns.error hb hcheck hp he
    obtain ⟨_, _, _, _, rfl, _⟩ := hruns
    exact herror.imp_left
      ((Solver.search_meets (Bounds.checkStart_eq_ok_iff.mp hcheck).1 hp hkeeps).error e)
  have hrun := Logged.Meets.bind (hE.evalObjective x) fun value hvalue =>
    Logged.Meets.bind (Solver.startGradient_eq hE (fun _ => .inl rfl) settings x value) fun grad hgrad =>
      (⟨fun _ _ => trivial, herror ⟨value, grad, hvalue, hgrad, rfl, rfl⟩,
        fun _ _ => trivial⟩ : (Solver.run
          { problem, settings, precision, searchFuel, maxNorm := Solver.maxNorm settings n grad }
          ((n + 1) * settings.budget) (Solver.start b x value grad)).Meets (fun _ => True) _
          fun _ => True)
  have hsolve : (solve problem settings precision searchFuel b x).Meets (fun _ => True)
      (fun e => e.isOfSearch = true ∨ e.isPlain = true) fun _ => True := by
    unfold solve
    rw [hcheck]
    apply Logged.Meets.bind Logged.meets_ofExcept_ok
    intro _ _
    apply Logged.Meets.bind hrun.listen
    intro _ _
    exact Logged.meets_pure trivial
  exact hsolve.error e h

theorem solve_separates {solution : Solution α n}
    (h : (solve problem settings precision searchFuel b x).result = .ok solution) :
    b.Separates solution.x := by
  obtain ⟨t, s₀, rs, s, found, hruns, _, hkeeps, hends, _, _, rfl⟩ := solve_ends hb hcheck hp h
  obtain ⟨_, _, _, _, rfl, _⟩ := hruns
  cases hends with
  | inl hlast =>
    cases Solver.pass_outcome hlast.2 with
    | finish hsteps =>
      exact (hkeeps.search (Bounds.checkStart_eq_ok_iff.mp hcheck).1 hp hsteps.search).separates
  | inr hexhausted =>
    obtain ⟨ms, _, rfl⟩ := Solver.solution_eq hexhausted.2
    exact hkeeps.separates

end Run

namespace Minimize

variable (problem : Problem α n) (settings : Settings α) (precision : Precision α) (searchFuel : Nat)
  (b : Bounds α n) (x : Vector α n) (limit : Nat)

/-- After `k` restarts the solver has run from `y` and ended in `result`; all runs before did not converge.
What they have logged is `log`. -/
inductive Solves : Nat → Vector α n → List (Event α n) → Except (Error α) (Solution α n) → Prop where
  | first : Solves 0 x (solve problem settings precision searchFuel b x).log
      (solve problem settings precision searchFuel b x).result
  | again {k : Nat} {y z : Vector α n} {log : List (Event α n)} {last : Solution α n} :
    Solves k y log (.ok last) → last.status = .budgetExhausted → k < limit →
    z = nudgeInside b precision.zero last.x →
    Solves (k + 1) z
      (log ++ .note (.restarting (k + 1) limit) :: (solve problem settings precision searchFuel b z).log)
      (solve problem settings precision searchFuel b z).result

variable {problem settings precision searchFuel b x limit} {k : Nat} {y : Vector α n}
  {log : List (Event α n)} {result : Except (Error α) (Solution α n)}

theorem Solves.result_eq (h : Solves problem settings precision searchFuel b x limit k y log result) :
    result = (solve problem settings precision searchFuel b y).result := by
  cases h with
  | first => rfl
  | again => rfl

theorem Solves.le_limit (h : Solves problem settings precision searchFuel b x limit k y log result) :
    k ≤ limit := by
  cases h with
  | first => exact Nat.zero_le _
  | again _ _ hlt => exact hlt

theorem Solves.unique (h : Solves problem settings precision searchFuel b x limit k y log result) :
    ∀ {y' log' result'}, Solves problem settings precision searchFuel b x limit k y' log' result' →
      y' = y ∧ log' = log ∧ result' = result := by
  induction h with
  | first =>
    intro y' log' result' h'
    cases h'
    exact ⟨rfl, rfl, rfl⟩
  | again _ _ _ hz ih =>
    intro y' log' result' h'
    cases h' with
    | again hbefore _ _ hz' =>
      obtain ⟨_, hlog, hlast⟩ := ih hbefore
      rw [Except.ok.injEq] at hlast
      rw [hlast, ← hz] at hz'
      subst hz' hlog
      exact ⟨rfl, rfl, rfl⟩

theorem Solves.before (h : Solves problem settings precision searchFuel b x limit k y log result)
    {j : Nat} (hj : j < k) : ∃ y' log' last,
      Solves problem settings precision searchFuel b x limit j y' log' (.ok last) ∧
      last.status = .budgetExhausted := by
  induction h with
  | first => exact absurd hj (Nat.not_lt_zero j)
  | again hbefore hstatus _ _ ih =>
    cases Nat.lt_or_eq_of_le (Nat.le_of_lt_succ hj) with
    | inl hlt => exact ih hlt
    | inr heq =>
      rw [heq]
      exact ⟨_, _, _, hbefore, hstatus⟩

def answer (raiseOnFailure : Bool) (restarts : Nat) : Except (Error α) (Solution α n) →
    Except (Error α) (Solution α n)
  | .error e => .error e
  | .ok last =>
    if last.status = .budgetExhausted ∧ raiseOnFailure then
      .error (.breakdown (.iterationLimit restarts last.x.toArray))
    else .ok last

omit [Scalar α] in
theorem answer_ok (raiseOnFailure : Bool) (restarts : Nat) (last : Solution α n) :
    (if (!last.converged && raiseOnFailure) = true then
      (Logged.fail (.breakdown (.iterationLimit restarts last.x.toArray)) : Run α n Unit) >>=
        fun _ => pure last
      else pure last : Run α n (Solution α n)) = ⟨[], answer raiseOnFailure restarts (.ok last)⟩ := by
  unfold answer
  dsimp only
  cases hconverged : last.converged with
  | true =>
    have hstatus := Solution.converged_eq_true_iff.mp hconverged
    rw [if_neg (by simp), if_neg (by simp [hstatus])]
    rfl
  | false =>
    have hstatus := Solution.converged_eq_false_iff.mp hconverged
    cases raiseOnFailure with
    | true =>
      rw [if_pos (by rfl), if_pos ⟨hstatus, rfl⟩]
      rfl
    | false =>
      rw [if_neg (by simp), if_neg (by simp)]
      rfl

theorem restart_solves (remaining : Nat) : ∀ (k : Nat) (y : Vector α n) (log : List (Event α n))
    (last : Solution α n), Solves problem settings precision searchFuel b x limit k y log (.ok last) →
    k + remaining = limit → ∃ k' y' log' result',
      Solves problem settings precision searchFuel b x limit k' y' (log ++ log') result' ∧
      (∀ last', result' = .ok last' → last'.status = .converged ∨ k' = limit) ∧
      restart problem settings precision searchFuel b limit last k remaining =
        ⟨log', result'.map (·, k')⟩ := by
  induction remaining with
  | zero =>
    intro k y log last h hk
    refine ⟨k, y, [], .ok last, ?_, fun _ _ => .inr hk, rfl⟩
    rw [List.append_nil]
    exact h
  | succ remaining ih =>
    intro k y log last h hk
    unfold restart
    cases hconverged : last.converged with
    | true =>
      refine ⟨k, y, [], .ok last, ?_, ?_, rfl⟩
      . rw [List.append_nil]
        exact h
      . intro last' hlast'
        cases hlast'
        exact Or.inl (Solution.converged_eq_true_iff.mp hconverged)
    | false =>
      have hagain := h.again (Solution.converged_eq_false_iff.mp hconverged) (by omega) rfl
      rw [if_neg Bool.false_ne_true, note_bind_eq]
      cases hsolve : (solve problem settings precision searchFuel b
          (nudgeInside b precision.zero last.x)).result with
      | error e =>
        rw [hsolve] at hagain
        rw [Logged.bind_eq_of_error hsolve]
        exact ⟨k + 1, _, _, _, hagain, nofun, rfl⟩
      | ok next =>
        rw [hsolve] at hagain
        obtain ⟨k', y', log', result', hsolves, hlast, hrestart⟩ := ih _ _ _ _ hagain (by omega)
        rw [List.append_assoc, List.cons_append] at hsolves
        rw [Logged.bind_eq_of_ok hsolve, hrestart]
        exact ⟨k', y', _, result', hsolves, hlast, rfl⟩

variable (problem settings precision searchFuel b x) in
theorem minimize_solves (policy : Policy) (hpolicy : 0 ≤ policy.maxRestarts) :
    ∃ k y log result, Solves problem settings precision searchFuel b x policy.maxRestarts.toNat k y log
      result ∧
      (∀ last, result = .ok last → last.status = .converged ∨ k = policy.maxRestarts.toNat) ∧
      minimize problem settings precision searchFuel b x policy =
        ⟨.note (.precision precision.epsilon precision.zero) :: log,
          answer policy.raiseOnFailure k result⟩ := by
  have hfirst : Solves problem settings precision searchFuel b x policy.maxRestarts.toNat 0 x _ _ := .first
  unfold minimize
  rw [if_neg (Int.not_lt.mpr hpolicy)]
  dsimp only
  rw [note_bind_eq]
  cases hsolve : (solve problem settings precision searchFuel b x).result with
  | error e =>
    rw [hsolve] at hfirst
    rw [Logged.bind_eq_of_error hsolve]
    exact ⟨0, x, _, _, hfirst, nofun, rfl⟩
  | ok first =>
    rw [hsolve] at hfirst
    obtain ⟨k, y, log, result, hsolves, hlast, hrestart⟩ := restart_solves _ 0 x _ first hfirst
      (Nat.zero_add _)
    refine ⟨k, y, _, result, hsolves, hlast, ?_⟩
    rw [Logged.bind_eq_of_ok hsolve]
    cases result with
    | error e =>
      rw [hrestart, Logged.bind_eq_of_error rfl]
      rfl
    | ok last =>
      rw [hrestart, Logged.bind_eq_of_ok rfl]
      dsimp only
      rw [answer_ok, List.append_nil]

end Minimize

end BoxDescent

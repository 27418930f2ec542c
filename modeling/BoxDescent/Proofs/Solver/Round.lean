import BoxDescent.Proofs.Problem
import BoxDescent.Proofs.Solver.Visited

/-!
This module contains everything that a round of the solver can do, with what it has looked at
(`pass_outcome`), and how a whole run of rounds ends (`run_ends`). What a round keeps is then a matter of
looking at four cases.
-/

namespace BoxDescent

namespace Solver

variable {α : Type} [Scalar α] {n : Nat}

def Iterate.Redirects (s s' : Iterate α n) : Prop :=
  ∃ direction, s.factor.direction s.grad s.activeSet.fixed = .ok direction ∧ s' = { s with direction }

theorem redirect_redirects {s s' : Iterate α n} (h : s.redirect.result = .ok s') : s.Redirects s' := by
  unfold Iterate.redirect at h
  obtain ⟨direction, hdirection, h⟩ := Logged.exists_of_bind_ok h
  rw [result_note_bind, Logged.result_pure, Except.ok.injEq] at h
  exact ⟨direction, hdirection, h.symm⟩

def Iterate.snap (s : Iterate α n) (r : SearchResult α n) (grad : Vector α n) : Iterate α n :=
  { s with
    x := r.x, value := r.value, grad, activeSet := r.activeSet
    factor := s.factor.resetAll r.activeSet.indices 0 }

def Iterate.released (s : Iterate α n) (kept toFree : List (Fin n)) : Iterate α n :=
  { s with
    activeSet := toFree.foldl (fun a i => a.release i s.x[i]) { s.activeSet with indices := kept }
    factor := s.factor.resetAll toFree 1
    toFree := some toFree }

theorem release_result (s : Iterate α n) (kept toFree : List (Fin n)) :
    (Iterate.release { s with activeSet := { s.activeSet with indices := kept } } toFree).result =
      .ok (s.released kept toFree) := by
  have hloop : ∀ (is : List (Fin n)) (s : Iterate α n), (is.foldlM (fun s i => do
      note (.freeing s.iterations i.val)
      return { s with activeSet := s.activeSet.release i s.x[i], factor := s.factor.reset i 1 })
      s : Run α n (Iterate α n)).result = .ok { s with
        activeSet := is.foldl (fun a i => a.release i s.x[i]) s.activeSet
        factor := s.factor.resetAll is 1 } := by
    intro is
    induction is with
    | nil => exact fun _ => rfl
    | cons i is ih =>
      intro s
      rw [List.foldlM_cons, Logged.result_bind, result_note_bind, Logged.result_pure]
      exact ih _
  exact hloop toFree _

structure Iterate.Steps (t : Task α n) (s : Iterate α n) (r : SearchResult α n) (grad : Vector α n)
    (change : α) : Prop where
  search : (s.search t).result = .ok r
  status : r.status ≠ .zeroStep
  displacement : displacement r.x s.x = .ok change
  gradient : t.problem.gradient r.x = .ok grad

def Iterate.Converges (t : Task α n) (s : Iterate α n) (r : SearchResult α n) (grad : Vector α n)
    (change : α) : Prop :=
  change < t.precision.zero ∨ (s.progress r grad).converged t.precision.zero = true

inductive Iterate.Outcome (t : Task α n) (s : Iterate α n) : Iterate α n ⊕ Solution α n → Prop where
  | snap {r : SearchResult α n} {grad : Vector α n} {s' : Iterate α n} :
    (s.search t).result = .ok r → r.status = .zeroStep → t.problem.gradient r.x = .ok grad →
    (s.snap r grad).Redirects s' → Outcome t s (.inl s')
  | step {r : SearchResult α n} {grad : Vector α n} {change : α} {factor : Factor α n}
    {s' : Iterate α n} : s.Steps t r grad change → ¬s.Converges t r grad change →
    (if (s.progress r grad).isCurved t.precision.zero r.activeSet.free then
      updateFactor t.precision.zero s.factor r.activeSet.fixed (s.progress r grad).gradChange
        (s.progress r grad).curvature s.grad r.slope = .ok factor
      else factor = s.factor) →
    Iterate.Redirects { s.move r grad with factor } s' → Outcome t s (.inl s')
  | release {r : SearchResult α n} {grad : Vector α n} {change : α} {step : Vector α n}
    {kept toFree : List (Fin n)} {s' : Iterate α n} : s.Steps t r grad change →
    s.Converges t r grad change → s.factor.direction grad r.activeSet.fixed = .ok step →
    (Release.select t.problem r.activeSet r.x grad step s.toFree).result =
      .ok { indices := kept, verdict := .ok (toFree, true) } →
    ((s.move r grad).released kept toFree).Redirects s' → Outcome t s (.inl s')
  | finish {r : SearchResult α n} {grad : Vector α n} {change : α} {step : Vector α n}
    {kept toFree : List (Fin n)} {value : α} {ms : List (Fin n × α)} : s.Steps t r grad change →
    s.Converges t r grad change → s.factor.direction grad r.activeSet.fixed = .ok step →
    (Release.select t.problem r.activeSet r.x grad step s.toFree).result =
      .ok { indices := kept, verdict := .ok (toFree, false) } →
    t.problem.objective r.x = .ok value →
    multipliers { r.activeSet with indices := kept } r.x grad = .ok ms →
    Outcome t s (.inr {
      x := r.x, value, status := .converged, iterations := s.iterations + 1, objectiveCount := 0
      gradientCount := 0, multipliers := ms, history := s.history ++ [r.value] })

theorem solution_eq {s : Iterate α n} {status : SolveStatus} {solution : Solution α n}
    (h : s.solution status = .ok solution) : ∃ ms, multipliers s.activeSet s.x s.grad = .ok ms ∧
      solution = {
        x := s.x, value := s.value, status, iterations := s.iterations, objectiveCount := 0
        gradientCount := 0, multipliers := ms, history := s.history } := by
  unfold Iterate.solution at h
  cases hms : multipliers s.activeSet s.x s.grad with
  | error e =>
    rw [hms] at h
    cases h
  | ok ms =>
    rw [hms] at h
    cases h
    exact ⟨ms, rfl, rfl⟩

theorem displacementConverged_result {p : Precision α} {x start : Vector α n} {displaced : Bool}
    (h : (displacementConverged p x start).result = .ok displaced) :
    ∃ change, displacement x start = .ok change ∧ (displaced = true ↔ change < p.zero) := by
  unfold displacementConverged at h
  obtain ⟨change, hchange, h⟩ := Logged.exists_of_bind_ok h
  refine ⟨change, hchange, ?_⟩
  split at h
  . next hlt =>
    cases h
    exact ⟨fun _ => hlt, fun _ => rfl⟩
  . next hnot =>
    cases h
    exact ⟨nofun, fun hlt => absurd hlt hnot⟩

section Outcome

variable {t : Task α n} {s : Iterate α n} {r : SearchResult α n} {grad : Vector α n} {change : α}
  {next : Iterate α n ⊕ Solution α n}

theorem conclude_outcome {curved : Bool} (hsteps : s.Steps t r grad change)
    (hconverges : s.Converges t r grad change)
    (h : ((s.move r grad).conclude t curved).result = .ok next) : s.Outcome t next := by
  unfold Iterate.conclude at h
  obtain ⟨step, hstep, h⟩ := Logged.exists_of_bind_ok h
  obtain ⟨⟨kept, verdict⟩, hselect, h⟩ := Logged.exists_of_bind_ok h
  obtain ⟨⟨toFree, isReleased⟩, hverdict, hrest⟩ := Logged.exists_of_bind_ok h
  clear h
  rw [Logged.result_ofExcept] at hstep hverdict
  rw [show verdict = .ok (toFree, isReleased) from hverdict] at hselect
  dsimp only at hrest
  cases isReleased with
  | true =>
    rw [if_pos rfl] at hrest
    obtain ⟨s₁, hreleased, h⟩ := Logged.exists_of_bind_ok hrest
    rw [release_result, Except.ok.injEq] at hreleased
    subst hreleased
    have hredirect : ∃ s', (Iterate.redirect ((s.move r grad).released kept toFree)).result = .ok s' ∧
        next = .inl s' := by
      split at h
      . rw [result_note_bind] at h
        obtain ⟨s', hs', h⟩ := Logged.exists_of_bind_ok h
        cases h
        exact ⟨s', hs', rfl⟩
      . obtain ⟨s', hs', h⟩ := Logged.exists_of_bind_ok h
        cases h
        exact ⟨s', hs', rfl⟩
    obtain ⟨s', hs', rfl⟩ := hredirect
    exact .release hsteps hconverges hstep hselect (redirect_redirects hs')
  | false =>
    rw [if_neg Bool.false_ne_true] at hrest
    obtain ⟨value, hvalue, h⟩ := Logged.exists_of_bind_ok hrest
    rw [result_note_bind] at h
    obtain ⟨solution, hsolution, h⟩ := Logged.exists_of_bind_ok h
    cases h
    obtain ⟨ms, hms, rfl⟩ := solution_eq hsolution
    exact .finish hsteps hconverges hstep hselect (Problem.objective_of_eval hvalue) hms

theorem afterStep_outcome (hsearch : (s.search t).result = .ok r) (hstatus : r.status ≠ .zeroStep)
    (h : (s.afterStep t r).result = .ok next) : s.Outcome t next := by
  unfold Iterate.afterStep at h
  obtain ⟨displaced, hdisplaced, h⟩ := Logged.exists_of_bind_ok h
  obtain ⟨grad, hgrad, h⟩ := Logged.exists_of_bind_ok h
  obtain ⟨change, hchange, hiff⟩ := displacementConverged_result hdisplaced
  have hsteps : s.Steps t r grad change := ⟨hsearch, hstatus, hchange, Problem.gradient_of_eval hgrad⟩
  have hconverges : s.Converges t r grad change ↔
      (displaced || (s.progress r grad).converged t.precision.zero) = true := by
    rw [Bool.or_eq_true, hiff]
    rfl
  rw [Logged.result_bind_of_ok (report_result _ _ _)] at h
  dsimp only at h
  split at h
  . next hconverged => exact conclude_outcome hsteps (hconverges.mpr hconverged) h
  . next hnot =>
    rw [← hconverges] at hnot
    split at h
    . next hcurved =>
      obtain ⟨factor, hfactor, h⟩ := Logged.exists_of_bind_ok h
      obtain ⟨s', hs', h⟩ := Logged.exists_of_bind_ok h
      cases h
      refine .step hsteps hnot ?_ (redirect_redirects hs')
      rw [if_pos hcurved]
      exact hfactor
    . next hflat =>
      rw [result_note_bind] at h
      obtain ⟨s', hs', h⟩ := Logged.exists_of_bind_ok h
      cases h
      have hkept : (if (s.progress r grad).isCurved t.precision.zero r.activeSet.free then
          updateFactor t.precision.zero s.factor r.activeSet.fixed (s.progress r grad).gradChange
            (s.progress r grad).curvature s.grad r.slope = .ok s.factor
          else s.factor = s.factor) := by
        rw [if_neg hflat]
      exact .step hsteps hnot hkept (redirect_redirects hs')

theorem pass_outcome (h : (s.pass t).result = .ok next) : s.Outcome t next := by
  unfold Iterate.pass at h
  rw [result_note_bind] at h
  obtain ⟨r, hsearch, h⟩ := Logged.exists_of_bind_ok h
  split at h
  . next hstatus =>
    obtain ⟨s', hs', h⟩ := Logged.exists_of_bind_ok h
    cases h
    unfold Iterate.afterZeroStep at hs'
    obtain ⟨grad, hgrad, hs'⟩ := Logged.exists_of_bind_ok hs'
    exact .snap hsearch hstatus (Problem.gradient_of_eval hgrad) (redirect_redirects hs')
  . next hstatus => exact afterStep_outcome hsearch hstatus h

theorem displacementConverged_eq {p : Precision α} {x start : Vector α n}
    (h : displacement x start = .ok change) :
    (displacementConverged p x start).result = .ok (decide (change < p.zero)) := by
  unfold displacementConverged
  rw [h, Logged.result_bind_of_ok (Logged.result_ofExcept _)]
  split
  . next hlt =>
    rw [decide_eq_true hlt]
    rfl
  . next hnot =>
    rw [decide_eq_false hnot]
    rfl

theorem Iterate.Redirects.result {s' : Iterate α n} (h : s.Redirects s') :
    s.redirect.result = .ok s' := by
  obtain ⟨direction, hdirection, rfl⟩ := h
  unfold Iterate.redirect
  rw [hdirection, Logged.result_bind_of_ok (Logged.result_ofExcept _)]
  rfl

theorem conclude_released {s' : Iterate α n} {step : Vector α n} {kept toFree : List (Fin n)}
    (hstep : s.factor.direction s.grad s.activeSet.fixed = .ok step)
    (hselect : (Release.select t.problem s.activeSet s.x s.grad step s.toFree).result =
      .ok { indices := kept, verdict := .ok (toFree, true) })
    (h : (s.released kept toFree).Redirects s') (curved : Bool) :
    (s.conclude t curved).result = .ok (.inl s') := by
  unfold Iterate.conclude
  rw [hstep, Logged.result_bind_of_ok (Logged.result_ofExcept _), Logged.result_bind_of_ok hselect,
    Logged.result_bind_of_ok (Logged.result_ofExcept _)]
  dsimp only
  rw [if_pos rfl, Logged.result_bind_of_ok (release_result s kept toFree)]
  split
  . rw [result_note_bind, Logged.result_bind_of_ok h.result]
    rfl
  . rw [Logged.result_bind_of_ok h.result]
    rfl

theorem conclude_finished {step : Vector α n} {kept toFree : List (Fin n)} {value : α}
    {ms : List (Fin n × α)} (hstep : s.factor.direction s.grad s.activeSet.fixed = .ok step)
    (hselect : (Release.select t.problem s.activeSet s.x s.grad step s.toFree).result =
      .ok { indices := kept, verdict := .ok (toFree, false) })
    (hvalue : t.problem.objective s.x = .ok value)
    (hms : multipliers { s.activeSet with indices := kept } s.x s.grad = .ok ms) (curved : Bool) :
    (s.conclude t curved).result = .ok (.inr {
      x := s.x, value, status := .converged, iterations := s.iterations, objectiveCount := 0
      gradientCount := 0, multipliers := ms, history := s.history }) := by
  unfold Iterate.conclude
  rw [hstep, Logged.result_bind_of_ok (Logged.result_ofExcept _), Logged.result_bind_of_ok hselect,
    Logged.result_bind_of_ok (Logged.result_ofExcept _)]
  dsimp only
  rw [if_neg Bool.false_ne_true, Logged.result_bind_of_ok (Problem.eval_of_objective hvalue),
    result_note_bind]
  unfold Iterate.solution
  dsimp only
  rw [hms]
  rfl

theorem Iterate.Steps.afterStep_result (h : s.Steps t r grad change) : (s.pass t).result =
    (s.afterStep t r).result := by
  unfold Iterate.pass
  rw [result_note_bind, Logged.result_bind_of_ok h.search, if_neg h.status]

theorem Iterate.Steps.pass_of_converges (h : s.Steps t r grad change)
    (hconverges : s.Converges t r grad change) : (s.pass t).result = ((s.move r grad).conclude t
      ((s.progress r grad).isCurved t.precision.zero r.activeSet.free)).result := by
  have hconverged : (decide (change < t.precision.zero) ||
      (s.progress r grad).converged t.precision.zero) = true := by
    rw [Bool.or_eq_true, decide_eq_true_eq]
    exact hconverges
  rw [h.afterStep_result]
  unfold Iterate.afterStep
  rw [Logged.result_bind_of_ok (displacementConverged_eq h.displacement),
    Logged.result_bind_of_ok (Problem.eval_of_gradient h.gradient),
    Logged.result_bind_of_ok (report_result _ _ _)]
  dsimp only
  rw [if_pos hconverged]

theorem Iterate.Steps.pass_of_not_converges {factor : Factor α n} {s' : Iterate α n}
    (h : s.Steps t r grad change) (hconverges : ¬s.Converges t r grad change)
    (hfactor : if (s.progress r grad).isCurved t.precision.zero r.activeSet.free then
      updateFactor t.precision.zero s.factor r.activeSet.fixed (s.progress r grad).gradChange
        (s.progress r grad).curvature s.grad r.slope = .ok factor
      else factor = s.factor) (hredirects : Iterate.Redirects { s.move r grad with factor } s') :
    (s.pass t).result = .ok (.inl s') := by
  have hconverged : ¬(decide (change < t.precision.zero) ||
      (s.progress r grad).converged t.precision.zero) = true := by
    rw [Bool.or_eq_true, decide_eq_true_eq]
    exact hconverges
  rw [h.afterStep_result]
  unfold Iterate.afterStep
  rw [Logged.result_bind_of_ok (displacementConverged_eq h.displacement),
    Logged.result_bind_of_ok (Problem.eval_of_gradient h.gradient),
    Logged.result_bind_of_ok (report_result _ _ _)]
  dsimp only
  rw [if_neg hconverged]
  split
  . next hcurved =>
    rw [if_pos hcurved] at hfactor
    rw [hfactor, Logged.result_bind_of_ok (Logged.result_ofExcept _),
      Logged.result_bind_of_ok hredirects.result]
    rfl
  . next hflat =>
    rw [if_neg hflat] at hfactor
    subst hfactor
    have hredirect : (s.move r grad).redirect.result = .ok s' := hredirects.result
    rw [result_note_bind, Logged.result_bind_of_ok hredirect]
    rfl

theorem pass_outcome_iff : (s.pass t).result = .ok next ↔ s.Outcome t next := by
  refine ⟨pass_outcome, ?_⟩
  intro h
  cases h with
  | @snap r grad s' hsearch hstatus hgradient hredirects =>
    unfold Iterate.pass
    rw [result_note_bind, Logged.result_bind_of_ok hsearch, if_pos hstatus]
    unfold Iterate.afterZeroStep
    rw [Logged.result_bind, Logged.result_bind_of_ok (Problem.eval_of_gradient hgradient)]
    show (Iterate.redirect (s.snap r grad)).result.bind _ = _
    rw [hredirects.result]
    rfl
  | step hsteps hconverges hfactor hredirects =>
    exact hsteps.pass_of_not_converges hconverges hfactor hredirects
  | @release r grad _ _ _ _ _ hsteps hconverges hstep hselect hredirects =>
    rw [hsteps.pass_of_converges hconverges]
    exact conclude_released (s := s.move r grad) hstep hselect hredirects _
  | @finish r grad _ _ _ _ _ _ hsteps hconverges hstep hselect hvalue hms =>
    rw [hsteps.pass_of_converges hconverges]
    exact conclude_finished (s := s.move r grad) hstep hselect hvalue hms _

end Outcome

def Iterate.Decides (t : Task α n) (s : Iterate α n) (r : SearchResult α n) (grad : Vector α n)
    (kept toFree : List (Fin n)) : Prop :=
  ∃ change step, s.Steps t r grad change ∧ s.Converges t r grad change ∧
    s.factor.direction grad r.activeSet.fixed = .ok step ∧
    (Release.select t.problem r.activeSet r.x grad step s.toFree).result =
      .ok { indices := kept, verdict := .ok (toFree, true) }

def Iterate.Releases (t : Task α n) (s : Iterate α n) (toFree : List (Fin n)) (s' : Iterate α n) : Prop :=
  ∃ r grad kept, s.Decides t r grad kept toFree ∧ ((s.move r grad).released kept toFree).Redirects s'

theorem Iterate.Releases.pass {t : Task α n} {s s' : Iterate α n} {toFree : List (Fin n)}
    (h : s.Releases t toFree s') : (s.pass t).result = .ok (.inl s') := by
  obtain ⟨r, grad, kept, ⟨change, step, hsteps, hconverges, hstep, hselect⟩, hredirects⟩ := h
  exact pass_outcome_iff.mpr (.release hsteps hconverges hstep hselect hredirects)

theorem search_of_pass {t : Task α n} {s : Iterate α n} {next : Iterate α n ⊕ Solution α n}
    (h : (s.pass t).result = .ok next) : ∃ r, (s.search t).result = .ok r := by
  cases pass_outcome h with
  | snap hsearch => exact ⟨_, hsearch⟩
  | step hsteps => exact ⟨_, hsteps.search⟩
  | release hsteps => exact ⟨_, hsteps.search⟩
  | finish hsteps => exact ⟨_, hsteps.search⟩

section Search

variable {t : Task α n} {s s' : Iterate α n} {r : SearchResult α n}

theorem Iterate.Outcome.of_zeroStep (h : s.Outcome t (.inl s')) (hsearch : (s.search t).result = .ok r)
    (hstatus : r.status = .zeroStep) :
    s'.iterations = s.iterations ∧ s'.history = s.history ∧ s'.activeSet = r.activeSet := by
  cases h with
  | snap hsearch' _ _ hredirects =>
    obtain ⟨_, _, rfl⟩ := hredirects
    rw [hsearch, Except.ok.injEq] at hsearch'
    subst hsearch'
    exact ⟨rfl, rfl, rfl⟩
  | step hsteps =>
    rw [hsteps.search, Except.ok.injEq] at hsearch
    exact absurd (hsearch ▸ hstatus) hsteps.status
  | release hsteps =>
    rw [hsteps.search, Except.ok.injEq] at hsearch
    exact absurd (hsearch ▸ hstatus) hsteps.status

theorem Iterate.Outcome.of_counted (h : s.Outcome t (.inl s')) (hsearch : (s.search t).result = .ok r)
    (hstatus : r.status ≠ .zeroStep) :
    s'.iterations = s.iterations + 1 ∧ s'.history = s.history ++ [r.value] := by
  cases h with
  | snap hsearch' hstatus' =>
    rw [hsearch, Except.ok.injEq] at hsearch'
    exact absurd (hsearch' ▸ hstatus') hstatus
  | step hsteps _ _ hredirects =>
    obtain ⟨_, _, rfl⟩ := hredirects
    rw [hsteps.search, Except.ok.injEq] at hsearch
    rw [← hsearch]
    exact ⟨rfl, rfl⟩
  | release hsteps _ _ _ hredirects =>
    obtain ⟨_, _, rfl⟩ := hredirects
    rw [hsteps.search, Except.ok.injEq] at hsearch
    rw [← hsearch]
    exact ⟨rfl, rfl⟩

end Search

/-- The run from `s₀` has come to `s`, and `rs` are the results of its searches until then. -/
inductive Rounds (t : Task α n) (s₀ : Iterate α n) : List (SearchResult α n) → Iterate α n → Prop where
  | start : Rounds t s₀ [] s₀
  | pass {rs : List (SearchResult α n)} {s s' : Iterate α n} {r : SearchResult α n} :
    Rounds t s₀ rs s → s.iterations < t.settings.budget → (s.search t).result = .ok r →
    (s.pass t).result = .ok (.inl s') → Rounds t s₀ (rs ++ [r]) s'

inductive Iterate.Ends (t : Task α n) (s : Iterate α n) : Except (Error α) (Solution α n) → Prop where
  | found {solution : Solution α n} : s.iterations < t.settings.budget →
    (s.pass t).result = .ok (.inr solution) → Ends t s (.ok solution)
  | failed {e : Error α} : s.iterations < t.settings.budget → (s.pass t).result = .error e →
    Ends t s (.error e)
  | exhausted : ¬s.iterations < t.settings.budget → Ends t s (s.solution .budgetExhausted)

theorem Iterate.Ends.of_ok {t : Task α n} {s : Iterate α n} {solution : Solution α n}
    (h : s.Ends t (.ok solution)) :
    s.iterations < t.settings.budget ∧ (s.pass t).result = .ok (.inr solution) ∨
      ¬s.iterations < t.settings.budget ∧ s.solution .budgetExhausted = .ok solution := by
  generalize houtcome : Except.ok solution = outcome at h
  cases h with
  | failed => cases houtcome
  | found hlt hpass =>
    cases houtcome
    exact Or.inl ⟨hlt, hpass⟩
  | exhausted hnot => exact Or.inr ⟨hnot, rfl⟩

theorem Iterate.Ends.of_error {t : Task α n} {s : Iterate α n} {e : Error α} (h : s.Ends t (.error e)) :
    s.iterations < t.settings.budget ∧ (s.pass t).result = .error e ∨
      s.solution .budgetExhausted = .error e := by
  generalize houtcome : Except.error e = outcome at h
  cases h with
  | found => cases houtcome
  | failed hlt hpass =>
    cases houtcome
    exact Or.inl ⟨hlt, hpass⟩
  | exhausted => exact Or.inr rfl

theorem run_ends_of_rounds {t : Task α n} {s₀ : Iterate α n} (fuel : Nat) :
    ∀ rs s, Rounds t s₀ rs s → ∃ rs' s', Rounds t s₀ rs' s' ∧
      (s'.Ends t (run t fuel s).result ∨
        s'.iterations < t.settings.budget ∧ rs'.length = rs.length + fuel) := by
  induction fuel with
  | zero =>
    intro rs s h
    by_cases hlt : s.iterations < t.settings.budget
    . exact ⟨rs, s, h, .inr ⟨hlt, rfl⟩⟩
    . rw [run_of_not_lt hlt]
      exact ⟨rs, s, h, .inl (.exhausted hlt)⟩
  | succ fuel ih =>
    intro rs s h
    by_cases hlt : s.iterations < t.settings.budget
    . rw [run_succ hlt, Logged.result_bind]
      cases hpass : (s.pass t).result with
      | error e => exact ⟨rs, s, h, .inl (.failed hlt hpass)⟩
      | ok next =>
        cases next with
        | inr solution => exact ⟨rs, s, h, .inl (.found hlt hpass)⟩
        | inl s' =>
          obtain ⟨r, hsearch⟩ := search_of_pass hpass
          obtain ⟨rs', s'', hrounds, hends⟩ := ih _ s' (h.pass hlt hsearch hpass)
          rw [List.length_append, List.length_singleton, Nat.add_assoc, Nat.add_comm 1] at hends
          exact ⟨rs', s'', hrounds, hends⟩
    . rw [run_of_not_lt hlt]
      exact ⟨rs, s, h, .inl (.exhausted hlt)⟩

theorem run_ends (t : Task α n) (fuel : Nat) (s₀ : Iterate α n) : ∃ rs s, Rounds t s₀ rs s ∧
    (s.Ends t (run t fuel s₀).result ∨ s.iterations < t.settings.budget ∧ rs.length = fuel) := by
  obtain ⟨rs, s, hrounds, hends⟩ := run_ends_of_rounds fuel [] s₀ .start
  rw [List.length_nil, Nat.zero_add] at hends
  exact ⟨rs, s, hrounds, hends⟩

end Solver

end BoxDescent

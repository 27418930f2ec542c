import BoxDescent.Proofs.Solver.Progress
import BoxDescent.Proofs.Exact.Solver

/-!
This module contains why runs of the solver end in exact arithmetic, for an objective that is bounded
below: the line searches do (`search_settles`), and only finitely many rounds do not count as iterations
(`pass_progress`). A run then fails with nothing but what its problem fails with, or with factors that an
update made singular (`solve_ok_iff`).
-/

namespace BoxDescent

open Extended

namespace Solver

variable {n : Nat} {b : Bounds Extended n} {E : Error Extended → Prop}

structure Task.Ends (t : Task Extended n) : Prop where
  epsilon : ∃ epsilon, t.precision.epsilon = .finite epsilon ∧ 0 < epsilon
  tolerance : t.settings.displacementTolerance ≠ .nan
  bounded : t.problem.IsBoundedBelow

variable {t : Task Extended n} {s : Iterate Extended n}

theorem search_settles (hE : Tolerates E t.problem) (ht : t.IsExact) (hends : t.Ends) (hb : b.AllFinite)
    (hkeeps : s.Keeps b) (hs : s.IsExact) :
    Logged.Settles (fun fuel => s.search (t.refuel fuel)) E
      (·.IsExact s.activeSet.fixed s.grad) := by
  obtain ⟨x, hx⟩ := hs.x
  obtain ⟨f, hf⟩ := hs.value
  obtain ⟨l, d, g, p, _, hg, hdirection, _, hd, hp⟩ := hs.direction
  unfold Iterate.search Task.refuel
  dsimp only
  rw [hx, hf, hg, hdirection]
  exact LineSearch.search_settles hE.regular (LineSearch.allFinite_working hkeeps.holds hb) ht.maxNorm
    ht.parameters (hp.slope_nonpos hd) hends.epsilon hends.tolerance hends.bounded

theorem pass_settles (hE : Tolerates E t.problem) (ht : t.IsExact) (hends : t.Ends)
    (hsingular : ∀ (fixed : Vector Bool n) (f : Factor Extended n), ToleratesSingular E fixed f)
    (hc : b.crossed = false) (hb : b.AllFinite) (hkeeps : s.Keeps b) (hs : s.IsExact) :
    Logged.Settles (fun fuel => s.pass (t.refuel fuel)) E (GoesOnFrom (·.IsExact)) := by
  have hsearch := ((search_settles hE ht hends hb hkeeps hs).withValue
    fun fuel => search_meets (t := t.refuel fuel) hc ht.parameters.positive hkeeps).withValue
      (Q := fun r => ∃ fuel, (s.search (t.refuel fuel)).result = .ok r)
      fun fuel => (Logged.meets_self (s.search (t.refuel fuel))).imp fun r hr => ⟨fuel, hr⟩
  apply pass_settles_of_search hsearch
  . intro r hr _
    exact afterZeroStep_exact hE hb hkeeps hs hr.1.1 hr.1.2
  . intro r hr hstatus
    obtain ⟨⟨hexact, hrkeeps⟩, fuel, hresult⟩ := hr
    have hafter := afterStep_exact (t := t.refuel fuel) hE (fun _ _ _ _ => hsingular _ _)
      ⟨ht.parameters, ht.maxNorm⟩ hb hkeeps hs hresult hexact hrkeeps hstatus
    apply hafter.imp
    intro next hnext
    cases next with
    | inl s' => exact hnext
    | inr solution => trivial

section Empty

theorem pass_of_empty {t : Task Extended 0} {b : Bounds Extended 0} (hc : b.crossed = false)
    (hp : t.precision.Positive) {s : Iterate Extended 0} (hkeeps : s.Keeps b) :
    (s.pass t).Meets (fun _ => True) (fun _ => True) fun _ => False := by
  unfold Iterate.pass
  apply meets_note_bind trivial
  apply Logged.Meets.bind ((search_meets hc hp hkeeps).mono (fun _ _ => trivial) (fun _ _ => trivial)
    fun _ h => h)
  intro r hr
  split
  . next hstatus =>
    -- A step of zero length fixes some variable.
    obtain ⟨i, _⟩ := List.exists_mem_of_ne_nil _ (hr.zeroStep hstatus)
    exact i.elim0
  . unfold Iterate.afterStep displacementConverged
    exact Logged.Meets.bind (P := fun _ => False)
      (Logged.Meets.bind (P := fun _ => False) ⟨fun _ _ => trivial, fun _ _ => trivial, nofun⟩
        fun _ h => h.elim) fun _ h => h.elim

end Empty

section Solve

variable {problem : Problem Extended n} {settings : Settings Extended} {epsilon zero : ℝ}
  {x₀ g : Fin n → ℝ} {f₀ : ℝ}

def IsSingularity (n : Nat) (e : Error Extended) : Prop :=
  (∃ (j : Fin n) (rhs : Extended), Factor.Decrease.isLast j = true ∧
    e = .breakdown (.direction .forward j rhs 0)) ∨ n = 0 ∧ e = .fault .mismatch

variable (hproblem : Tolerates (fun e => n = 0 ∧ e = .fault .mismatch) problem)
  (hsettings : settings.Valid) (hepsilon : 0 < epsilon) (hzero : 0 < zero) (hb : b.AllFinite)
  (hcheck : b.checkStart (ofReals x₀) = .ok ())
  (hobjective : problem.objective (ofReals x₀) = .ok (.finite f₀))
  (hgradient : problem.gradient (ofReals x₀) = .ok (ofReals g))
include hproblem hsettings hepsilon hzero hb hcheck hobjective hgradient

theorem solve_settles (htolerance : settings.displacementTolerance ≠ .nan)
    (hbounded : problem.IsBoundedBelow) : ∃ enough, ∀ searchFuel, enough ≤ searchFuel → ∀ e,
      (solve problem settings { epsilon := .finite epsilon, zero := .finite zero } searchFuel b
        (ofReals x₀)).result = .error e → IsSingularity n e := by
  have hE : Tolerates (IsSingularity n) problem := hproblem.mono fun e he => Or.inr he
  have ht := taskIsExact problem hsettings hepsilon hzero 0 g
  refine solve_ends_of_pass (I := (·.IsExact)) hb hcheck ⟨finite_lt.mpr hepsilon, finite_lt.mpr hzero⟩
    hobjective hgradient ?_ (start_exact b x₀ g f₀)
  intro s hkeeps hs _
  exact pass_settles hE ht ⟨⟨epsilon, rfl, hepsilon⟩, htolerance, hbounded⟩
    (fun _ _ j rhs hlast _ _ => Or.inl ⟨j, rhs, hlast, rfl⟩)
    (Bounds.checkStart_eq_ok_iff.mp hcheck).1 hb hkeeps hs

theorem updates_exact {searchFuel : Nat} {s : Iterate Extended n} {r : SearchResult Extended n}
    {f : Factor Extended n} (h : UpdatesFactor problem settings
      { epsilon := .finite epsilon, zero := .finite zero } searchFuel b (ofReals x₀) s r f) :
    ∃ t grad, Runs problem settings { epsilon := .finite epsilon, zero := .finite zero } searchFuel b
        (ofReals x₀) t (start b (ofReals x₀) (.finite f₀) (ofReals g)) ∧
      Visited t (start b (ofReals x₀) (.finite f₀) (ofReals g)) s ∧ s.Updates t r grad f ∧
      t.problem = problem ∧ t.IsExact ∧ s.Keeps b ∧ s.IsExact := by
  obtain ⟨hc, hreached⟩ := Bounds.checkStart_eq_ok_iff.mp hcheck
  have hkeeps := keeps_start (Bounds.contains_of_not_reached hreached)
    (Bounds.separates_of_not_reached hb hreached) (.finite f₀) (ofReals g)
  have ht := taskIsExact problem hsettings hepsilon hzero searchFuel g
  obtain ⟨t, s₀, grad, hruns, hvisited, hupdates⟩ := h
  obtain ⟨value, grad₀, hvalue, hgrad, rfl, rfl⟩ := hruns
  rw [hobjective, Except.ok.injEq] at hvalue
  rw [hgradient, Except.ok.injEq] at hgrad
  subst hvalue hgrad
  exact ⟨_, grad, ⟨_, _, hobjective, hgradient, rfl, rfl⟩, hvisited, hupdates, rfl, ht,
    visited_exact hproblem ht hc hb hkeeps (start_exact b x₀ g f₀) hvisited⟩

theorem positive_of_along {searchFuel : Nat} {s : Iterate Extended n} {r : SearchResult Extended n}
    {f : Factor Extended n} (h : UpdatesFactor problem settings
      { epsilon := .finite epsilon, zero := .finite zero } searchFuel b (ofReals x₀) s r f)
    (hdirection : r.direction = s.direction) (hfixed : r.activeSet.fixed = s.activeSet.fixed)
    (hmoved : ∀ i : Fin n, r.activeSet.fixed[i] = false → r.x[i] = s.x[i] + r.step * r.direction[i])
    (i : Fin n) (hi : r.activeSet.fixed[i] = false) : 0 < f.diag[i] := by
  obtain ⟨hc, _⟩ := Bounds.checkStart_eq_ok_iff.mp hcheck
  obtain ⟨t, grad, _, _, hupdates, rfl, ht, hkeeps, hs⟩ := updates_exact hproblem hsettings hepsilon
    hzero hb hcheck hobjective hgradient h
  obtain ⟨l, d, rfl, _, _, _, halong⟩ := hupdates.exact hproblem ht hc hb hkeeps hs
  show 0 < (ofReals d)[i]
  rw [getElem_ofReals, zero_eq, finite_lt]
  exact halong hdirection hfixed hmoved i hi

section Found

variable {searchFuel : Nat} (hsolution : ∃ solution,
  (solve problem settings { epsilon := .finite epsilon, zero := .finite zero } searchFuel b
    (ofReals x₀)).result = .ok solution)
include hsolution

theorem pos_of_solution : 0 < n := by
  apply Nat.pos_of_ne_zero
  intro hn
  subst hn
  obtain ⟨hc, hreached⟩ := Bounds.checkStart_eq_ok_iff.mp hcheck
  have hkeeps := keeps_start (Bounds.contains_of_not_reached hreached)
    (Bounds.separates_of_not_reached hb hreached) (.finite f₀) (ofReals g)
  have ht := taskIsExact problem hsettings hepsilon hzero searchFuel g
  obtain ⟨solution, hsolution⟩ := exists_run_ok hcheck ⟨_, _, hobjective, hgradient, rfl, rfl⟩ hsolution
  have hpass := pass_of_empty (t := {
    problem, settings, searchFuel
    precision := { epsilon := .finite epsilon, zero := .finite zero }
    maxNorm := maxNorm settings 0 (ofReals g) }) hc ht.parameters.positive hkeeps
  have hbudget : 0 < settings.budget := by
    have := hsettings.1
    unfold Settings.budget
    omega
  cases hresult : ((start b (ofReals x₀) (.finite f₀) (ofReals g)).pass _).result with
  | ok next => exact hpass.value next hresult
  | error e => exact (Visited.start hbudget).pass_ne_error hsolution e hresult

theorem diag_pos_of_solution {s : Iterate Extended n} {r : SearchResult Extended n}
    {f : Factor Extended n} (hf : UpdatesFactor problem settings
      { epsilon := .finite epsilon, zero := .finite zero } searchFuel b (ofReals x₀) s r f)
    {i : Fin n} (hi : r.activeSet.fixed[i] = false) : 0 < f.diag[i] := by
  obtain ⟨hc, _⟩ := Bounds.checkStart_eq_ok_iff.mp hcheck
  obtain ⟨t, grad, hruns, hvisited, hupdates, rfl, ht, hkeeps, hs⟩ := updates_exact hproblem hsettings
    hepsilon hzero hb hcheck hobjective hgradient hf
  obtain ⟨solution, hsolution⟩ := exists_run_ok hcheck hruns hsolution
  apply Classical.byContradiction
  intro hnot
  obtain ⟨e, he⟩ := hupdates.pass_error hproblem ht hc hb hkeeps hs hi hnot
  exact hvisited.pass_ne_error hsolution e he

end Found

/-- A run finds a solution if and only if none of its updates makes the factors singular. -/
theorem solve_ok_iff {searchFuel : Nat} (hno : ∀ e,
      (solve problem settings { epsilon := .finite epsilon, zero := .finite zero } searchFuel b
        (ofReals x₀)).result = .error e → IsSingularity n e) :
    (∃ solution, (solve problem settings { epsilon := .finite epsilon, zero := .finite zero } searchFuel b
      (ofReals x₀)).result = .ok solution) ↔
    0 < n ∧ ∀ s r f, UpdatesFactor problem settings { epsilon := .finite epsilon, zero := .finite zero }
      searchFuel b (ofReals x₀) s r f → ∀ i : Fin n, r.activeSet.fixed[i] = false → 0 < f.diag[i] := by
  constructor
  . intro hsolution
    refine ⟨pos_of_solution hproblem hsettings hepsilon hzero hb hcheck hobjective hgradient hsolution, ?_⟩
    intro s r f hf i hi
    exact diag_pos_of_solution hproblem hsettings hepsilon hzero hb hcheck hobjective hgradient hsolution hf
      hi
  . intro h
    obtain ⟨hpos, hupdates⟩ := h
    have hne : ∀ e, ¬(n = 0 ∧ e = (.fault .mismatch : Error Extended)) := by
      intro e he
      omega
    -- The only error that is left is the lack of fuel, and there is enough.
    have hsolve := solve_exact (E := (· = .outOfFuel)) rfl (hproblem.mono fun e he => absurd he (hne e))
      hsettings hepsilon hzero hb hcheck (fun v hv => by
        rw [hobjective, Except.ok.injEq] at hv
        exact ⟨f₀, hv.symm⟩) searchFuel (by
        intro s r f hf j rhs _ hfree hzero
        have hdiag := hupdates s r f hf j hfree
        rw [hzero] at hdiag
        exact absurd hdiag (Scalar.lt_irrefl))
    cases hresult : (solve problem settings { epsilon := .finite epsilon, zero := .finite zero }
        searchFuel b (ofReals x₀)).result with
    | ok solution => exact ⟨solution, rfl⟩
    | error e =>
      have hfuel := hsolve.error e hresult
      cases hno e hresult with
      | inl hsingular =>
        obtain ⟨_, _, _, heq⟩ := hsingular
        rw [hfuel] at heq
        cases heq
      | inr hempty => exact absurd hempty (hne e)

end Solve

end Solver

end BoxDescent

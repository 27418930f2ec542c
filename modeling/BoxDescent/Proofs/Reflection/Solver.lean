import BoxDescent.Proofs.Exact.Quadratic
import BoxDescent.Proofs.Reflection.Release
import BoxDescent.Proofs.Reflection.Search

/-!
This module contains the solver in reflected coordinates. Round by round it does the same
(`pass_reflect`), so it fails alike or has the reflected solution, after as many evaluations
(`solve_reflects`). This is so for all problems without a Hessian, and for all others if the rows of the
Hessian keep the signs of the gradient entries that they belong to. If they change their signs as well, a
variable may be released at an upper bound that is held at the lower one (`solve_does_not_reflect`).
-/

namespace BoxDescent

open Extended

variable {n : Nat} (σ : Fin n → Bool)

noncomputable def Solution.reflect (s : Solution Extended n) : Solution Extended n :=
  { s with x := BoxDescent.reflect σ s.x }

namespace Solver

noncomputable def Iterate.reflect (s : Iterate Extended n) : Iterate Extended n :=
  { s with
    x := BoxDescent.reflect σ s.x, grad := BoxDescent.reflect σ s.grad, factor := s.factor.reflect σ
    direction := BoxDescent.reflect σ s.direction, activeSet := s.activeSet.reflect σ }

noncomputable def Task.reflect (τ : Fin n → Bool) (t : Task Extended n) : Task Extended n :=
  { t with problem := t.problem.reflect σ τ }

section Progress

noncomputable def Progress.reflect (p : Progress Extended n) : Progress Extended n :=
  { p with
    displacement := BoxDescent.reflect σ p.displacement
    gradChange := BoxDescent.reflect σ p.gradChange }

theorem displacement_reflect (x start : Vector Extended n) :
    displacement (BoxDescent.reflect σ x) (BoxDescent.reflect σ start) = displacement x start := by
  unfold displacement
  simp only [getElem_reflect, signed_sub, abs_signed]

theorem displacementConverged_reflect (p : Precision Extended) (x start : Vector Extended n) :
    Reflected σ Eq (displacementConverged p x start)
      (displacementConverged p (BoxDescent.reflect σ x) (BoxDescent.reflect σ start)) := by
  have hself : Corresponds Error.Alike Eq (displacement x start) (displacement x start) := by
    cases displacement x start with
    | ok change => exact .ok rfl
    | error e => exact .error (.same e)
  unfold displacementConverged
  rw [displacement_reflect]
  apply Logged.Parallel.bind (Logged.parallel_ofExcept hself)
  rintro change _ rfl
  split
  . exact reflected_note_bind (Logged.parallel_pure rfl)
  . exact Logged.parallel_pure rfl

theorem difference_reflect (u v : Vector Extended n) :
    difference (BoxDescent.reflect σ u) (BoxDescent.reflect σ v) =
      BoxDescent.reflect σ (difference u v) := by
  unfold difference
  simp only [getElem_reflect, signed_sub]
  exact reflect_ofFn σ fun i => u[i] - v[i]

theorem gradientTest_reflect (grad direction : Vector Extended n) (value : Extended)
    (free : List (Fin n)) :
    gradientTest (BoxDescent.reflect σ grad) (BoxDescent.reflect σ direction) value free =
      gradientTest grad direction value free := by
  unfold gradientTest
  simp only [getElem_reflect, abs_signed]

theorem progress_reflect (s : Iterate Extended n) (r : SearchResult Extended n)
    (grad : Vector Extended n) :
    (s.reflect σ).progress (r.reflect σ) (BoxDescent.reflect σ grad) =
      (s.progress r grad).reflect σ := by
  have hgradChange : (Vector.ofFn fun i : Fin n => if r.activeSet.fixed[i] then 0 else
        (BoxDescent.reflect σ grad)[i] - (BoxDescent.reflect σ s.grad)[i]) = BoxDescent.reflect σ
      (Vector.ofFn fun i : Fin n => if r.activeSet.fixed[i] then 0 else grad[i] - s.grad[i]) := by
    rw [← reflect_ofFn]
    congr 1
    funext i
    rw [getElem_reflect, getElem_reflect, signed_sub]
    split
    . rw [signed_zero]
    . rfl
  unfold Iterate.progress
  rw [show (r.reflect σ).activeSet.fixed = r.activeSet.fixed from rfl,
    show (r.reflect σ).x = BoxDescent.reflect σ r.x from rfl,
    show (s.reflect σ).x = BoxDescent.reflect σ s.x from rfl,
    show (s.reflect σ).grad = BoxDescent.reflect σ s.grad from rfl,
    show (r.reflect σ).direction = BoxDescent.reflect σ r.direction from rfl,
    show (r.reflect σ).value = r.value from rfl]
  dsimp only
  rw [hgradChange, difference_reflect, difference_reflect, dotOver_reflect, dotOver_reflect,
    gradientTest_reflect]
  rfl

theorem isCurved_reflect (p : Progress Extended n) (zero : Extended) (free : List (Fin n)) :
    (p.reflect σ).isCurved zero free = p.isCurved zero free := by
  unfold Progress.isCurved
  rw [show (p.reflect σ).displacement = BoxDescent.reflect σ p.displacement from rfl,
    show (p.reflect σ).gradChange = BoxDescent.reflect σ p.gradChange from rfl,
    normOver_reflect, normOver_reflect]
  rfl

theorem report_reflect (p : Progress Extended n) (zero : Extended) (iteration : Nat) :
    Reflected σ (fun _ _ => True) (p.report zero iteration) ((p.reflect σ).report zero iteration) := by
  show Reflected σ _ (p.report zero iteration) (p.report zero iteration)
  have hcurvature : Reflected σ (fun _ _ => True)
      (if Scalar.abs p.totalCurvature < zero then
        note (.curvatureNegligible iteration p.totalCurvature) else pure ())
      (if Scalar.abs p.totalCurvature < zero then
        note (.curvatureNegligible iteration p.totalCurvature) else pure ()) := by
    split
    . exact reflected_note _ _ trivial
    . exact Logged.parallel_pure trivial
  unfold Progress.report
  dsimp only
  split
  . exact reflected_note_bind hcurvature
  . exact hcurvature

end Progress

theorem updateFactor_reflect (zero : Extended) (f : Factor Extended n) (fixed : Vector Bool n)
    (gradChange : Vector Extended n) (curvature : Extended) (oldGrad : Vector Extended n)
    (slope : Extended) :
    Corresponds Error.Alike (fun f f' => f' = f.reflect σ)
      (updateFactor zero f fixed gradChange curvature oldGrad slope)
      (updateFactor zero (f.reflect σ) fixed (BoxDescent.reflect σ gradChange) curvature
        (BoxDescent.reflect σ oldGrad) slope) := by
  unfold updateFactor
  refine corresponds_ite (.error (.same _)) ?_
  apply Corresponds.bind (Factor.update_reflect σ f fixed gradChange (1 / curvature) zero)
  rintro f' _ rfl
  exact Factor.update_reflect σ f' fixed oldGrad (1 / slope) zero

theorem redirect_reflect (s : Iterate Extended n) :
    Reflected σ (fun s s' => s' = s.reflect σ) s.redirect (s.reflect σ).redirect := by
  unfold Iterate.redirect
  apply Logged.Parallel.bind
    (Logged.parallel_ofExcept (Factor.direction_reflect σ s.factor s.activeSet.fixed s.grad))
  rintro direction _ rfl
  exact reflected_note_bind (Logged.parallel_pure rfl)

variable {b : Bounds Extended n} (hb : b.AllFinite)

include hb in
theorem release_reflect (toFree : List (Fin n)) (s : Iterate Extended n) {kept : List (Fin n)}
    (hholds : s.activeSet.Holds b (toFree ++ kept) s.x) (hsep : b.Separates s.x) :
    Reflected σ (fun s s' => s' = s.reflect σ) (s.release toFree) ((s.reflect σ).release toFree) := by
  have hloop : ∀ (is : List (Fin n)) (s : Iterate Extended n),
      s.activeSet.Holds b (is ++ kept) s.x → b.Separates s.x →
      Reflected σ (fun s s' => s' = s.reflect σ)
        (is.foldlM (fun s i => do
          note (.freeing s.iterations i.val)
          return { s with activeSet := s.activeSet.release i s.x[i], factor := s.factor.reset i 1 }) s)
        (is.foldlM (fun s i => do
          note (.freeing s.iterations i.val)
          return { s with activeSet := s.activeSet.release i s.x[i], factor := s.factor.reset i 1 })
          (s.reflect σ)) := by
    intro is
    induction is with
    | nil => exact fun s _ _ => Logged.parallel_pure rfl
    | cons i is ih =>
      intro s hholds hsep
      have hi := (hholds.mem i).mp List.mem_cons_self
      have hrelease : (s.activeSet.reflect σ).release i (s.reflect σ).x[i] =
          (s.activeSet.release i s.x[i]).reflect σ := by
        rw [← ActiveSet.release_reflect σ hholds hb hsep hi, ← getElem_reflect]
        rfl
      rw [List.foldlM_cons, List.foldlM_cons]
      refine Logged.Parallel.bind (R := fun u u' => u' = u.reflect σ ∧
        u = { s with activeSet := s.activeSet.release i s.x[i], factor := s.factor.reset i 1 })
        (reflected_note_bind (Logged.parallel_pure ⟨?_, rfl⟩)) ?_
      . unfold Iterate.reflect at hrelease ⊢
        dsimp only at hrelease ⊢
        rw [hrelease, Factor.reset_reflect]
      . rintro u _ ⟨rfl, rfl⟩
        exact ih _ (hholds.release hb hsep) hsep
  exact hloop toFree { s with toFree := some toFree } hholds hsep

theorem multipliers_reflect {a : ActiveSet Extended n} {x : Vector Extended n} (hbounds : a.bounds = b)
    (hsep : b.Separates x) (grad : Vector Extended n) :
    Corresponds Error.Alike Eq (multipliers a x grad)
      (multipliers (a.reflect σ) (BoxDescent.reflect σ x) (BoxDescent.reflect σ grad)) := by
  unfold multipliers
  apply corresponds_mapM
  intro i _
  apply Corresponds.bind (ActiveSet.multiplier_reflect σ hbounds hsep grad i)
  rintro m _ rfl
  exact .ok rfl

theorem solution_reflect {s : Iterate Extended n} (hbounds : s.activeSet.bounds = b)
    (hsep : b.Separates s.x) (status : SolveStatus) :
    Corresponds Error.Alike (fun s s' => s' = s.reflect σ) (s.solution status)
      ((s.reflect σ).solution status) := by
  unfold Iterate.solution
  apply Corresponds.bind (multipliers_reflect σ hbounds hsep s.grad)
  rintro ms _ rfl
  exact .ok rfl

section Round

variable {τ : Fin n → Bool} {t : Task Extended n} {s : Iterate Extended n}
  {r : SearchResult Extended n}

theorem afterZeroStep_reflect (t : Task Extended n) (s : Iterate Extended n)
    (r : SearchResult Extended n) :
    Reflected σ (fun s s' => s' = s.reflect σ) (s.afterZeroStep t r)
      ((s.reflect σ).afterZeroStep (t.reflect σ τ) (r.reflect σ)) := by
  unfold Iterate.afterZeroStep
  apply Logged.Parallel.bind (t.problem.evalGradient_reflect σ τ r.x)
  rintro grad _ rfl
  dsimp only
  rw [show (s.reflect σ).factor = s.factor.reflect σ from rfl, Factor.resetAll_reflect]
  exact redirect_reflect σ _

variable (hrows : ∀ i side v, b.bound i side = some v → τ i = true → t.problem.LacksRow i)
include hb hrows

theorem conclude_reflect (hs : s.Keeps b) (curved : Bool) :
    Reflected σ (fun next next' => next' = next.map (Iterate.reflect σ) (Solution.reflect σ))
      (s.conclude t curved) ((s.reflect σ).conclude (t.reflect σ τ) curved) := by
  unfold Iterate.conclude
  apply Logged.Parallel.bind
    (Logged.parallel_ofExcept (Factor.direction_reflect σ s.factor s.activeSet.fixed s.grad))
  rintro step _ rfl
  -- The variables kept and those found make up the held ones, which `release_reflect` needs.
  have hsplit : (Release.select t.problem s.activeSet s.x s.grad step s.toFree).Meets (fun _ => True)
      (fun _ => True) (·.Splits s.activeSet.indices fun _ => True) :=
    Release.select_meets (fun _ => trivial) hb hs.holds t.problem s.grad step s.toFree fun _ =>
      ⟨fun _ _ => trivial, fun _ _ => trivial, fun _ _ => trivial⟩
  apply Logged.Parallel.bind
    ((Release.select_reflect σ hs.separates s.grad step hs.holds hrows s.toFree).withValue hsplit)
  rintro ⟨kept, verdict⟩ ⟨kept', verdict'⟩ ⟨⟨hindices, hverdict⟩, hsplits⟩
  dsimp only at hindices hverdict hsplits ⊢
  subst hindices
  refine Logged.Parallel.bind (R := fun v v' => v = v' ∧ (v.1 ++ kept).Perm s.activeSet.indices)
    (Logged.parallel_ofExcept (hverdict.imp ?_)) ?_
  . rintro v _ hv rfl
    exact ⟨rfl, hsplits.1 v.1 v.2 hv⟩
  rintro ⟨toFree, released⟩ _ ⟨rfl, hperm⟩
  have hholds := (hs.holds.perm hperm).withIndices kept
  dsimp only
  split
  . apply Logged.Parallel.bind (release_reflect σ hb toFree
      { s with activeSet := { s.activeSet with indices := kept } } hholds hs.separates)
    rintro s' _ rfl
    have hredirect : Reflected σ (fun (next next' : Iterate Extended n ⊕ Solution Extended n) =>
          next' = next.map (Iterate.reflect σ) (Solution.reflect σ))
        (do
          let s'' ← s'.redirect
          return .inl s'')
        (do
          let s'' ← (s'.reflect σ).redirect
          return .inl s'') := by
      apply Logged.Parallel.bind (redirect_reflect σ s')
      rintro s'' _ rfl
      exact Logged.parallel_pure rfl
    split
    . exact reflected_note_bind hredirect
    . exact hredirect
  . apply Logged.Parallel.bind (t.problem.evalObjective_reflect σ τ s.x)
    rintro value _ rfl
    apply reflected_note_bind
    apply Logged.Parallel.bind (Logged.parallel_ofExcept (solution_reflect σ
      (s := { s with activeSet := { s.activeSet with indices := kept }, value }) hs.holds.bounds
      hs.separates .converged))
    rintro solution _ rfl
    exact Logged.parallel_pure rfl

theorem afterStep_reflect (hr : r.Keeps b s.activeSet s.x) :
    Reflected σ (fun next next' => next' = next.map (Iterate.reflect σ) (Solution.reflect σ))
      (s.afterStep t r) ((s.reflect σ).afterStep (t.reflect σ τ) (r.reflect σ)) := by
  unfold Iterate.afterStep
  apply Logged.Parallel.bind (displacementConverged_reflect σ t.precision r.x s.x)
  rintro displaced _ rfl
  apply Logged.Parallel.bind (t.problem.evalGradient_reflect σ τ r.x)
  rintro grad _ rfl
  dsimp only
  rw [progress_reflect, isCurved_reflect]
  apply Logged.Parallel.bind (report_reflect σ (s.progress r grad) t.precision.zero _)
  rintro _ _ _
  refine Logged.parallel_ite ?_ (Logged.parallel_ite ?_ ?_)
  . exact conclude_reflect σ hb hrows (s := s.move r grad) ⟨hr.holds, hr.separates⟩ _
  . apply Logged.Parallel.bind (Logged.parallel_ofExcept (updateFactor_reflect σ t.precision.zero s.factor
      r.activeSet.fixed (s.progress r grad).gradChange (s.progress r grad).curvature s.grad r.slope))
    rintro factor _ rfl
    apply Logged.Parallel.bind (redirect_reflect σ { s.move r grad with factor })
    rintro next _ rfl
    exact Logged.parallel_pure rfl
  . apply reflected_note_bind
    apply Logged.Parallel.bind (redirect_reflect σ (s.move r grad))
    rintro next _ rfl
    exact Logged.parallel_pure rfl

variable (hc : b.crossed = false) (hp : t.precision.Positive)
include hc hp

omit hb hrows in
theorem search_reflect (hs : s.Keeps b) : Reflected σ (fun r r' => r' = r.reflect σ) (s.search t)
    ((s.reflect σ).search (t.reflect σ τ)) :=
  LineSearch.search_reflect σ τ s.direction hp t.problem s.activeSet s.x s.value s.grad t.maxNorm hc
    hs.holds hs.separates t.searchFuel

theorem pass_reflect (hs : s.Keeps b) :
    Reflected σ (fun next next' => next' = next.map (Iterate.reflect σ) (Solution.reflect σ))
      (s.pass t) ((s.reflect σ).pass (t.reflect σ τ)) := by
  have hsearch : Reflected σ (fun r r' => r' = r.reflect σ ∧ r.Keeps b s.activeSet s.x) (s.search t)
      ((s.reflect σ).search (t.reflect σ τ)) :=
    (search_reflect σ hc hp hs).withValue (search_meets hc hp hs)
  unfold Iterate.pass
  apply reflected_note_bind
  apply Logged.Parallel.bind hsearch
  rintro r _ ⟨rfl, hr⟩
  rw [show (r.reflect σ).status = r.status from rfl]
  split
  . apply Logged.Parallel.bind (afterZeroStep_reflect σ t s r)
    rintro next _ rfl
    exact Logged.parallel_pure rfl
  . exact afterStep_reflect σ hb hrows hr

theorem run_reflect (fuel : Nat) : ∀ s : Iterate Extended n, s.Keeps b →
    Reflected σ (fun s s' => s' = s.reflect σ) (run t fuel s)
      (run (t.reflect σ τ) fuel (s.reflect σ)) := by
  have hend : ∀ s : Iterate Extended n, s.Keeps b → Reflected σ (fun s s' => s' = s.reflect σ)
      (do
        note .budgetExhausted
        Logged.ofExcept (s.solution .budgetExhausted))
      (do
        note .budgetExhausted
        Logged.ofExcept ((s.reflect σ).solution .budgetExhausted)) := by
    intro s hs
    apply reflected_note_bind
    exact Logged.parallel_ofExcept (solution_reflect σ hs.holds.bounds hs.separates .budgetExhausted)
  induction fuel with
  | zero =>
    intro s hs
    unfold run
    exact Logged.parallel_ite (Logged.parallel_fail (.same _)) (hend s hs)
  | succ fuel ih =>
    intro s hs
    unfold run
    refine Logged.parallel_ite ?_ (hend s hs)
    apply Logged.Parallel.bind ((pass_reflect σ hb hrows hc hp hs).withValue (pass_meets hc hb hp hs))
    rintro next _ ⟨rfl, hnext⟩
    cases next with
    | inl s' => exact ih s' hnext
    | inr solution => exact Logged.parallel_pure rfl

omit hb hrows in
theorem Iterate.Steps.reflect (hs : s.Keeps b) {grad : Vector Extended n} {change : Extended}
    (h : s.Steps t r grad change) :
    (s.reflect σ).Steps (t.reflect σ τ) (r.reflect σ) (BoxDescent.reflect σ grad) change where
  search := by
    have hsearch := (search_reflect σ (τ := τ) hc hp hs).result
    rw [h.search] at hsearch
    obtain ⟨r', hr', rfl⟩ := hsearch.exists_of_ok
    exact hr'
  status := h.status
  displacement := (displacement_reflect σ r.x s.x).trans h.displacement
  gradient := by
    have hgradient := (t.problem.evalGradient_reflect σ τ r.x).result
    rw [Problem.eval_of_gradient h.gradient] at hgradient
    obtain ⟨grad', hgrad', rfl⟩ := hgradient.exists_of_ok
    exact Problem.gradient_of_eval hgrad'

omit hb hrows hc hp in
theorem Iterate.Converges.reflect {grad : Vector Extended n} {change : Extended}
    (h : s.Converges t r grad change) :
    (s.reflect σ).Converges (t.reflect σ τ) (r.reflect σ) (BoxDescent.reflect σ grad) change := by
  unfold Iterate.Converges
  rw [progress_reflect]
  exact h

end Round

theorem start_reflect (b : Bounds Extended n) (x : Vector Extended n) (value : Extended)
    (grad : Vector Extended n) : start (b.reflect σ) (BoxDescent.reflect σ x) value
      (BoxDescent.reflect σ grad) = (start b x value grad).reflect σ := by
  unfold start Iterate.reflect
  dsimp only
  rw [Factor.identity_reflect, ← reflect_ofFn]
  simp only [getElem_reflect, signed_neg]
  rfl

theorem maxNorm_reflect (settings : Settings Extended) (grad : Vector Extended n) :
    maxNorm settings n (BoxDescent.reflect σ grad) = maxNorm settings n grad := by
  unfold maxNorm norm
  rw [normOver_reflect]

theorem startGradient_reflect (τ : Fin n → Bool) (problem : Problem Extended n)
    (settings : Settings Extended) (x : Vector Extended n) (value : Extended) :
    Reflected σ (fun g g' => g' = BoxDescent.reflect σ g) (startGradient problem settings x value)
      (startGradient (problem.reflect σ τ) settings (BoxDescent.reflect σ x) value) := by
  unfold startGradient
  apply Logged.Parallel.bind (problem.evalGradient_reflect σ τ x).attempt
  intro outcome outcome' houtcome
  cases houtcome with
  | ok hg => exact reflected_note_bind (Logged.parallel_pure hg)
  | error he =>
    have hfail : ∀ e : Error Extended, Reflected σ (fun g g' => g' = BoxDescent.reflect σ g)
        (Logged.fail e) (Logged.fail e) := fun e => Logged.parallel_fail (.same e)
    cases he with
    | decrease => exact Logged.parallel_fail (.decrease _ _ _ _)
    | direction => exact Logged.parallel_fail (.direction _ _ _ _ _)
    | offBounds => exact Logged.parallel_fail (.offBounds _ _ _ _ _ _ _)
    | same e =>
      split
      . next h => cases h
      . next g h =>
        cases h
        apply reflected_note_bind
        apply reflected_note_bind
        split
        . exact reflected_note_bind (reflected_note_bind (hfail _))
        . exact hfail _
      . next e' h h' =>
        cases h'
        exact hfail _

end Solver

/-- The solver in reflected coordinates, where the two sides of a box trade places if the sign is turned
around. It evaluates the problem at the reflected points, one after the other, and either fails alike or has
the reflected solution, with the same values, multipliers and counts. This asks that no row of the Hessian
that belongs to a variable with a bound has its sign turned around. -/
theorem solve_reflects {problem : Problem Extended n} {b : Bounds Extended n} (hb : b.AllFinite)
    {τ : Fin n → Bool}
    (hrows : ∀ i side v, b.bound i side = some v → τ i = true → problem.LacksRow i)
    {precision : Precision Extended} (hp : precision.Positive) (settings : Settings Extended)
    (searchFuel : Nat) (x : Vector Extended n) :
    Reflected σ (fun s s' => s' = s.reflect σ) (solve problem settings precision searchFuel b x)
      (solve (problem.reflect σ τ) settings precision searchFuel (b.reflect σ) (reflect σ x)) := by
  unfold solve
  rw [Bounds.checkStart_reflect]
  cases hcheck : b.checkStart x with
  | error refusal => exact ⟨.nil, .error (.same _)⟩
  | ok =>
    obtain ⟨hc, hreached⟩ := Bounds.checkStart_eq_ok_iff.mp hcheck
    have hx := Bounds.contains_of_not_reached hreached
    have hsep := Bounds.separates_of_not_reached hb hreached
    refine Logged.Parallel.bind (R := fun _ _ => True) (Logged.parallel_ofExcept (.ok trivial)) ?_
    intro _ _ _
    have hrun : Reflected σ (fun s s' => s' = s.reflect σ)
        (do
          let value ← problem.evalObjective x
          let grad ← Solver.startGradient problem settings x value
          Solver.run { problem, settings, precision, searchFuel, maxNorm := Solver.maxNorm settings n grad }
            ((n + 1) * settings.budget) (Solver.start b x value grad))
        (do
          let value ← (problem.reflect σ τ).evalObjective (reflect σ x)
          let grad ← Solver.startGradient (problem.reflect σ τ) settings (reflect σ x) value
          Solver.run
            { problem := problem.reflect σ τ, settings, precision, searchFuel
              maxNorm := Solver.maxNorm settings n grad }
            ((n + 1) * settings.budget) (Solver.start (b.reflect σ) (reflect σ x) value grad)) := by
      apply Logged.Parallel.bind (problem.evalObjective_reflect σ τ x)
      rintro value _ rfl
      apply Logged.Parallel.bind (Solver.startGradient_reflect σ τ problem settings x value)
      rintro grad _ rfl
      rw [Solver.start_reflect, Solver.maxNorm_reflect]
      exact Solver.run_reflect σ hb (t := { problem, settings, precision, searchFuel
                                            maxNorm := Solver.maxNorm settings n grad })
        hrows hc hp _ _ (Solver.keeps_start hx hsep value grad)
    apply Logged.Parallel.bind hrun.listen
    rintro ⟨solution, log⟩ ⟨_, log'⟩ ⟨rfl, hlog⟩
    apply Logged.parallel_pure
    dsimp only at hlog ⊢
    rw [Event.objectiveCount_of_reflects hlog, Event.gradientCount_of_reflects hlog]
    rfl

theorem solve_reflects_bowl :
    Reflected (fun _ => true) (fun s s' => s' = s.reflect fun _ => true)
      (solve Bowl.problem (Bowl.settings 3) Line.precision 100 (Line.above 0) (Line.point 3))
      (solve (Bowl.problem.reflect (fun _ => true) fun _ => true) (Bowl.settings 3) Line.precision 100
        ((Line.above 0).reflect fun _ => true) (reflect (fun _ => true) (Line.point 3))) ∧
    ∃ solution, (solve Bowl.problem (Bowl.settings 3) Line.precision 100 (Line.above 0)
        (Line.point 3)).result = .ok solution ∧ solution.status = .converged ∧
      (solve (Bowl.problem.reflect (fun _ => true) fun _ => true) (Bowl.settings 3) Line.precision 100
        ((Line.above 0).reflect fun _ => true) (reflect (fun _ => true) (Line.point 3))).result =
          .ok (solution.reflect fun _ => true) := by
  have hrow : ∀ i, Bowl.problem.LacksRow i := by
    intro i row hrow
    cases hrow
  have hfinite : (Line.above 0).AllFinite := Input.allFinite_of_start Line.start_input
  have hreflects := solve_reflects (fun _ => true) (τ := fun _ => true) hfinite
    (fun i _ _ _ _ => hrow i) Line.precision_positive (Bowl.settings 3) 100 (Line.point 3)
  obtain ⟨_, _, hfound⟩ := Bowl.solve_found 3 99 Bowl.isParabola le_rfl
  have hresult := hreflects.result
  rw [hfound] at hresult
  obtain ⟨_, hresult, rfl⟩ := hresult.exists_of_ok
  exact ⟨hreflects, _, hfound, rfl, hresult⟩

namespace Trough

abbrev turned : Fin 2 → Bool :=
  fun _ => true

theorem reflect_point (x y : ℝ) : reflect turned (point x y) = point (-x) (-y) := by
  rw [eq_point_iff, getElem_reflect, getElem_reflect, point_zero, point_one]
  exact ⟨rfl, rfl⟩

theorem start_keeps (c : ℝ) : (start c).Keeps box := by
  obtain ⟨_, hreached⟩ := Bounds.checkStart_eq_ok_iff.mp checkStart_box
  exact Solver.keeps_start (Bounds.contains_of_not_reached hreached)
    (Bounds.separates_of_not_reached (Input.allFinite_of_start start_input) hreached) _ _

theorem estimate_reflect (c : ℝ) : (Release.estimate ((objective c).problem.reflect turned turned)
    ((result c).activeSet.reflect turned) (reflect turned (result c).x) (reflect turned (point (-5) (-2)))
    (reflect turned (point 0 2)) 0).result =
      .ok { first := .finite (-5), change := .finite (-2), secondOrder := true } := by
  have hseparates : box.Separates (result c).x := by
    intro i l u _ hu _
    fin_cases i <;> cases hu
  have hrow : (((objective c).problem.reflect turned turned).evalHessianRow
      (reflect turned (result c).x) 0).result = .ok (some (point 6 1)) := by
    have hparallel := ((objective c).problem.evalHessianRow_reflect turned turned (result c).x 0).result
    rw [evalHessianRow_eq] at hparallel
    obtain ⟨row, hrow, rfl⟩ := hparallel.exists_of_ok
    rw [hrow, Option.map_some]
    rfl
  have hchange : dotOver ((result c).activeSet.reflect turned).free (point 6 1)
      (reflect turned (point 0 2)) = .finite (-2) := by
    rw [reflect_point]
    show dotOver [1] _ _ = _
    rw [dotOver_second, one_mul]
  have hfirst : ((result c).activeSet.reflect turned).multiplier (reflect turned (result c).x)
      (reflect turned (point (-5) (-2))) 0 = .ok (.finite (-5)) := by
    have hparallel := ActiveSet.multiplier_reflect turned (a := (result c).activeSet) rfl hseparates
      (point (-5) (-2)) 0
    rw [multiplier_eq] at hparallel
    obtain ⟨_, hfirst, rfl⟩ := hparallel.exists_of_ok
    exact hfirst
  unfold Release.estimate
  rw [Logged.result_bind_of_ok hrow]
  dsimp only
  rw [hchange, hfirst, Logged.result_bind_of_ok (Logged.result_ofExcept _), result_note_bind]
  rfl

theorem select_reflect (c : ℝ) : (Release.select ((objective c).problem.reflect turned turned)
    ((result c).activeSet.reflect turned) (reflect turned (result c).x) (reflect turned (point (-5) (-2)))
    (reflect turned (point 0 2)) none).result = .ok { indices := [], verdict := .ok ([0], true) } := by
  have hreleased : ({ first := .finite (-5), change := .finite (-2), secondOrder := true } :
      Release.Estimate Extended).isReleased = true := by
    rw [Release.isReleased_finite rfl rfl]
    norm_num
  unfold Release.select
  show (Release.decision _ _ [0]).result = _
  rw [Release.decision_single (estimate_reflect c) (Or.inl rfl), hreleased]
  rfl

noncomputable def freed (c : ℝ) : Solver.Iterate Extended 2 :=
  (((start c).reflect turned).move ((result c).reflect turned) (reflect turned (point (-5) (-2)))).released
    [] [0]

theorem freed_redirects (c : ℝ) : ∃ direction, (freed c).Redirects { freed c with direction } := by
  have hfactor : (freed c).factor = Factor.identity := by
    show ((Factor.identity : Factor Extended 2).reflect turned).reset 0 1 = _
    rw [Factor.identity_reflect, Factor.reset_identity]
  have hdirection : ∃ direction,
      (freed c).factor.direction (freed c).grad (freed c).activeSet.fixed = .ok direction := by
    rw [hfactor]
    show ∃ direction, Factor.identity.direction (reflect turned (point (-5) (-2))) _ = .ok direction
    rw [reflect_point]
    exact ⟨_, Factor.direction_identity _ _⟩
  obtain ⟨direction, hdirection⟩ := hdirection
  exact ⟨direction, direction, hdirection, rfl⟩

theorem start_decides {c : ℝ} (hc : 2 ^ 28 ≤ c) (fuel : Nat) :
    ((start c).reflect turned).Decides ((task c (fuel + 1)).reflect turned turned)
      ((result c).reflect turned) (reflect turned (point (-5) (-2))) [] [0] := by
  have hstep := Factor.direction_reflect turned Factor.identity (result c).activeSet.fixed (point (-5) (-2))
  rw [direction_eq] at hstep
  obtain ⟨_, hstep, rfl⟩ := hstep.exists_of_ok
  exact ⟨_, _,
    (steps fuel).reflect turned (Bounds.checkStart_eq_ok_iff.mp checkStart_box).1 Line.precision_positive
      (start_keeps c),
    (converges hc _ _).reflect turned, hstep, select_reflect c⟩

theorem start_releases {c : ℝ} (hc : 2 ^ 28 ≤ c) (fuel : Nat) : ∃ direction,
    ((start c).reflect turned).Releases ((task c (fuel + 1)).reflect turned turned) [0]
      { freed c with direction } := by
  obtain ⟨direction, hdirection⟩ := freed_redirects c
  exact ⟨direction, _, _, _, start_decides hc fuel, hdirection⟩

noncomputable def stopped (c : ℝ) : Solution Extended 2 :=
  { (found c).reflect turned with status := .budgetExhausted, multipliers := [] }

theorem runs_reflect (c : ℝ) (fuel : Nat) :
    Runs ((objective c).problem.reflect turned turned) settings Line.precision fuel (box.reflect turned)
      (reflect turned origin) ((task c fuel).reflect turned turned) ((start c).reflect turned) := by
  obtain ⟨value, grad, hvalue, hgrad, htask, hstart⟩ := runs c fuel
  refine ⟨value, reflect turned grad, ?_, ?_, ?_, ?_⟩
  . show (objective c).problem.objective (reflect turned (reflect turned origin)) = _
    rw [reflect_reflect]
    exact hvalue
  . show ((objective c).problem.gradient (reflect turned (reflect turned origin))).map _ = _
    rw [reflect_reflect, hgrad]
    rfl
  . rw [htask, Solver.maxNorm_reflect]
    rfl
  . rw [hstart, Solver.start_reflect]

theorem solve_stopped {c : ℝ} (hc : 2 ^ 28 ≤ c) (fuel : Nat) : ∃ objectiveCount gradientCount,
    (solve ((objective c).problem.reflect turned turned) settings Line.precision (fuel + 1)
      (box.reflect turned) (reflect turned origin)).result =
        .ok { stopped c with objectiveCount, gradientCount } := by
  have hcheck : (box.reflect turned).checkStart (reflect turned origin) = .ok () :=
    (Bounds.checkStart_reflect turned box origin).trans checkStart_box
  have hbudget : ((start c).reflect turned).iterations <
      ((task c (fuel + 1)).reflect turned turned).settings.budget := Nat.zero_lt_one
  obtain ⟨direction, hreleases⟩ := start_releases hc fuel
  -- There is no iteration left.
  have hspent : ¬({ freed c with direction } : Solver.Iterate Extended 2).iterations <
      ((task c (fuel + 1)).reflect turned turned).settings.budget := Nat.lt_irrefl 1
  obtain ⟨objectiveCount, gradientCount, hsolve⟩ := solve_result hcheck (runs_reflect c (fuel + 1))
  refine ⟨objectiveCount, gradientCount, ?_⟩
  rw [hsolve]
  show (Solver.run ((task c (fuel + 1)).reflect turned turned) (2 + 1)
    ((start c).reflect turned)).result.map _ = _
  rw [Solver.run_succ hbudget, Logged.result_bind_of_ok hreleases.pass]
  dsimp only
  rw [Solver.run_of_not_lt hspent, result_note_bind]
  rfl

end Trough

theorem solve_does_not_reflect :
    Input.start (.ofArray #[.finite (7 / 4), .finite (-7 / 2)])
        (some (.ofArray #[.finite (-1 / 4), .nan])) none = .ok Trough.input ∧
      Trough.settings.Valid ∧ ∃ solution solution',
        (solve (Trough.objective 1000000000).problem Trough.settings Line.precision 100
          Trough.input.bounds Trough.input.x).result = .ok solution ∧
        (solve ((Trough.objective 1000000000).problem.reflect (fun _ => true) fun _ => true) Trough.settings
          Line.precision 100 (Trough.input.bounds.reflect fun _ => true)
          (reflect (fun _ => true) Trough.input.x)).result = .ok solution' ∧
        solution'.x = reflect (fun _ => true) solution.x ∧
        solution.status = .converged ∧ solution.multipliers = [(0, .finite (-5))] ∧
        solution'.status = .budgetExhausted ∧ solution'.multipliers = [] := by
  have hc : (2 : ℝ) ^ 28 ≤ 1000000000 := by norm_num
  obtain ⟨_, _, hsolve⟩ := Trough.solve_found hc 99
  obtain ⟨_, _, hsolve'⟩ := Trough.solve_stopped hc 99
  exact ⟨Trough.start_input, Trough.settings_valid, _, _, hsolve, hsolve', rfl, rfl, rfl, rfl, rfl⟩

end BoxDescent

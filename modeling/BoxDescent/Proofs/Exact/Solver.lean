import BoxDescent.Proofs.Solver.Point
import BoxDescent.Proofs.Exact.Pass

/-!
This module contains whole runs of the solver in exact arithmetic, from the first direction, which is the
steepest descent, to whatever the run ends in. `solve_descends` is what holds at every search.
-/

namespace BoxDescent

open Extended

namespace Solver

variable {n : Nat} {b : Bounds Extended n} {E : Error Extended → Prop}

section Start

theorem isDirection_start (g : Fin n → ℝ) (fixed : Vector Bool n)
    (hfixed : ∀ i : Fin n, fixed[i] = false) :
    Factor.IsDirection (fun i j => if i = j then 1 else 0) (fun _ => 1) g fixed fun i => -g i where
  onFixed := by
    intro i hi
    rw [hfixed i] at hi
    cases hi
  onFree := by
    intro i hi
    have hmem : i ∈ freeSet fixed := mem_freeSet.mpr hi
    rw [Factor.sum_product, Finset.sum_eq_single i]
    . unfold Factor.pullback
      rw [if_pos rfl, Finset.sum_eq_single i]
      . dsimp only
        rw [if_pos rfl]
        ring
      . intro k _ hki
        dsimp only
        rw [if_neg hki, zero_mul]
      . intro hnot
        exact absurd hmem hnot
    . intro j _ hji
      rw [if_neg (Ne.symm hji), zero_mul, zero_mul]
    . intro hnot
      exact absurd hmem hnot

theorem start_exact (b : Bounds Extended n) (x g : Fin n → ℝ) (f : ℝ) :
    (start b (ofReals x) (.finite f) (ofReals g)).IsExact := by
  exact ⟨⟨x, rfl⟩, ⟨f, rfl⟩, _, _, g, fun i => -g i, Factor.identity_ofReals, rfl,
    start_direction b _ _ g, Factor.isUnitLower_identity, fun _ _ => one_pos,
    isDirection_start g _ fun i => getElem_replicate false i⟩

theorem pickMax_norm (g : Fin n → ℝ) :
    ∃ m, 0 ≤ m ∧ Scalar.pickMax (norm (ofReals g)) (Scalar.ofCount n) = .finite m := by
  have hnonneg := (Real.sqrt_nonneg ((List.finRange n).map fun i => g i * g i).sum).trans
    (le_max_left _ (n : ℝ))
  refine ⟨_, hnonneg, ?_⟩
  unfold norm
  rw [normOver_ofReals, ofCount_eq, pickMax_finite]

theorem isLimit_maxNorm {settings : Settings Extended} (h : ¬settings.maxStep ≤ 0) (g : Fin n → ℝ) :
    LineSearch.IsLimit (maxNorm settings n (ofReals g)) := by
  obtain ⟨m, hnonneg, hnorm⟩ := pickMax_norm g
  unfold maxNorm
  rw [hnorm]
  cases hmax : settings.maxStep with
  | finite r =>
    rw [hmax, zero_eq, finite_le, not_le] at h
    exact LineSearch.isLimit_finite (mul_nonneg h.le hnonneg)
  | posInf =>
    have hmul : Extended.posInf * .finite m = infinity m := rfl
    rw [hmul]
    -- Times a norm of zero it is undefined, and that is no limit either.
    unfold infinity
    split
    . exact ⟨nofun, nofun⟩
    . rw [if_neg hnonneg.not_gt]
      exact ⟨nofun, nofun⟩
  | negInf =>
    rw [hmax] at h
    exact absurd trivial h
  | nan => exact ⟨nofun, nofun⟩

theorem taskIsExact (problem : Problem Extended n) {settings : Settings Extended} (hs : settings.Valid)
    {epsilon zero : ℝ} (hepsilon : 0 < epsilon) (hzero : 0 < zero) (searchFuel : Nat) (g : Fin n → ℝ) :
    Task.IsExact {
      problem, settings, searchFuel
      precision := { epsilon := .finite epsilon, zero := .finite zero }
      maxNorm := maxNorm settings n (ofReals g) } where
  parameters := {
    sufficientDecrease := hs.2.1
    order := hs.2.2.1
    curvature := hs.2.2.2.1
    displacementTolerance := hs.2.2.2.2.1
    positive := ⟨finite_lt.mpr hepsilon, finite_lt.mpr hzero⟩
    zero := ⟨zero, rfl⟩ }
  maxNorm := isLimit_maxNorm hs.2.2.2.2.2 g

end Start

theorem visited_exact {t : Task Extended n} (hE : Tolerates E t.problem) (ht : t.IsExact)
    (hc : b.crossed = false) (hb : b.AllFinite) {s₀ s : Iterate Extended n} (hkeeps : s₀.Keeps b)
    (hs : s₀.IsExact) (h : Visited t s₀ s) : s.Keeps b ∧ s.IsExact := by
  apply h.invariant (I := fun s => s.Keeps b ∧ s.IsExact) ⟨hkeeps, hs⟩
  intro s s' hs _ hpass
  have hexact := pass_exact (E := fun _ => True) trivial (hE.mono fun _ _ => trivial)
    (fun _ _ _ _ _ _ _ _ _ => trivial) ht hc hb hs.1 hs.2
  exact ⟨(pass_meets hc hb ht.parameters.positive hs.1).value _ hpass, hexact.value _ hpass⟩

theorem run_exact {t : Task Extended n} (hfuel : E .outOfFuel) (hE : Tolerates E t.problem)
    (ht : t.IsExact) (hc : b.crossed = false) (hb : b.AllFinite) (fuel : Nat)
    {s₀ : Iterate Extended n} (hkeeps : s₀.Keeps b) (hs : s₀.IsExact)
    (hsingular : ∀ s r grad f, Visited t s₀ s → s.Updates t r grad f →
      ToleratesSingular E r.activeSet.fixed f) :
    (run t fuel s₀).Meets (fun _ => True) E fun _ => True := by
  -- The invariant knows that the run searches from the iterate, as `hsingular` asks for that.
  apply run_meets (fun _ => trivial) hfuel
    (I := fun s => s.Keeps b ∧ s.IsExact ∧ (s.iterations < t.settings.budget → Visited t s₀ s))
  . intro s hs hlt
    obtain ⟨hkeeps, hexact, hvisited⟩ := hs
    have hpass := pass_exact hfuel hE (fun r grad f => hsingular s r grad f (hvisited hlt)) ht hc hb
      hkeeps hexact
    apply ((hpass.withValue (pass_meets hc hb ht.parameters.positive hkeeps)).withValue
      (Logged.meets_self _)).imp
    intro next hnext
    obtain ⟨⟨hnextExact, hnextKeeps⟩, hpass⟩ := hnext
    cases next with
    | inl s' => exact ⟨hnextKeeps, hnextExact, (hvisited hlt).pass hpass⟩
    | inr solution => trivial
  . intro s hs _
    exact (solution_meets hb hs.1.holds .budgetExhausted).imp fun _ _ => trivial
  . exact ⟨hkeeps, hs, Visited.start⟩

section Solve

variable {problem : Problem Extended n} {settings : Settings Extended} {epsilon zero : ℝ}
  {x₀ : Fin n → ℝ}

theorem searches_exact (hE : Tolerates E problem) (hsettings : settings.Valid)
    (hepsilon : 0 < epsilon) (hzero : 0 < zero) (hb : b.AllFinite)
    (hcheck : b.checkStart (ofReals x₀) = .ok ())
    (hvalue : ∀ v, problem.objective (ofReals x₀) = .ok v → ∃ f, v = .finite f) {searchFuel : Nat}
    {t : Iterate Extended n}
    (ht : Searches problem settings { epsilon := .finite epsilon, zero := .finite zero } searchFuel b
      (ofReals x₀) t) : t.IsExact := by
  obtain ⟨hc, hreached⟩ := Bounds.checkStart_eq_ok_iff.mp hcheck
  have hx := Bounds.contains_of_not_reached hreached
  have hsep := Bounds.separates_of_not_reached hb hreached
  obtain ⟨_, _, ⟨value, grad, hobjective, hgradient, rfl, rfl⟩, hvisited⟩ := ht
  obtain ⟨f, rfl⟩ := hvalue value hobjective
  obtain ⟨g, rfl⟩ := hE.regular.gradient x₀ grad hgradient
  exact (visited_exact hE (taskIsExact _ hsettings hepsilon hzero searchFuel g) hc hb
    (keeps_start hx hsep _ _) (start_exact b x₀ g f) hvisited).2

theorem solve_exact (hfuel : E .outOfFuel) (hE : Tolerates E problem)
    (hsettings : settings.Valid) (hepsilon : 0 < epsilon) (hzero : 0 < zero) (hb : b.AllFinite)
    (hcheck : b.checkStart (ofReals x₀) = .ok ())
    (hvalue : ∀ v, problem.objective (ofReals x₀) = .ok v → ∃ f, v = .finite f) (searchFuel : Nat)
    (hsingular : ∀ s r f, UpdatesFactor problem settings
      { epsilon := .finite epsilon, zero := .finite zero } searchFuel b (ofReals x₀) s r f →
      ToleratesSingular E r.activeSet.fixed f) :
    (solve problem settings { epsilon := .finite epsilon, zero := .finite zero } searchFuel b
      (ofReals x₀)).Meets (fun _ => True) E fun _ => True := by
  obtain ⟨hc, hreached⟩ := Bounds.checkStart_eq_ok_iff.mp hcheck
  have hx := Bounds.contains_of_not_reached hreached
  have hsep := Bounds.separates_of_not_reached hb hreached
  unfold solve
  rw [hcheck]
  apply Logged.Meets.bind Logged.meets_ofExcept_ok
  intro _ _
  dsimp only
  have hrun : ∀ value grad, problem.objective (ofReals x₀) = .ok value →
      problem.gradient (ofReals x₀) = .ok grad →
      (run { problem, settings, searchFuel
             precision := { epsilon := .finite epsilon, zero := .finite zero }
             maxNorm := maxNorm settings n grad }
        ((n + 1) * settings.budget) (start b (ofReals x₀) value grad)).Meets (fun _ => True) E
        fun _ => True := by
    intro value grad hobjective hgradient
    obtain ⟨f, rfl⟩ := hvalue value hobjective
    obtain ⟨g, rfl⟩ := hE.regular.gradient x₀ grad hgradient
    apply run_exact hfuel hE (taskIsExact _ hsettings hepsilon hzero searchFuel g) hc hb _
      (keeps_start hx hsep _ _) (start_exact b x₀ g f)
    intro s r grad f hvisited hupdates
    exact hsingular s r f ⟨_, _, grad, ⟨_, _, hobjective, hgradient, rfl, rfl⟩, hvisited, hupdates⟩
  have hcounted := Logged.Meets.bind (hE.regular.tolerates.evalObjective (ofReals x₀)) fun value hvalue =>
    Logged.Meets.bind (startGradient_eq hE.regular.tolerates hE.empty settings (ofReals x₀) value)
      fun grad hgrad => hrun value grad hvalue hgrad
  apply Logged.Meets.bind hcounted.listen
  intro counted _
  exact Logged.meets_pure trivial

end Solve

end Solver

structure Problem.IsFiniteFrom (p : Problem Extended n) (x₀ : Vector Extended n) : Prop where
  objective : ∀ x v, p.objective (ofReals x) = .ok v → v = .posInf ∨ ∃ f, v = .finite f
  start : ∀ v, p.objective x₀ = .ok v → ∃ f, v = .finite f
  gradient : ∀ x g, p.gradient (ofReals x) = .ok g → ∃ w, g = ofReals w

def Error.isUnsound {α : Type} : Error α → Bool
  | .breakdown (.ascent _) => true
  | .breakdown (.infeasibleStep ..) => true
  | .breakdown (.decrease ..) => true
  | _ => false

theorem tolerates_unsound {p : Problem Extended n} {x₀ : Vector Extended n} (hp : p.IsFiniteFrom x₀) :
    Solver.Tolerates (·.isUnsound = false) p where
  regular := ⟨hp.objective, hp.gradient, fun _ _ _ => rfl, fun _ _ _ => rfl⟩
  hessian := by
    intro x i
    unfold Problem.evalHessianRow
    split
    . exact Logged.meets_pure trivial
    . split
      . exact Logged.meets_ok (fun _ _ => trivial) trivial
      . exact Logged.meets_fail rfl
  empty := fun _ => rfl

/-- In exact arithmetic the factors are positive on the free variables at every search, and the direction
solves the equation of Newton's method with them. So it does not ascend, no step is infeasible and the
factors can always be decreased. -/
theorem solve_descends {x : Grid Extended} {lower upper : Option (Grid Extended)}
    {s : Input.Start Extended} (hstart : Input.start x lower upper = .ok s)
    (hcheck : s.bounds.checkStart s.x = .ok ()) (hfinite : ∀ i : Fin s.size, Scalar.isFinite s.x[i] = true)
    {problem : Problem Extended s.size} (hproblem : problem.IsFiniteFrom s.x)
    {settings : Settings Extended} (hsettings : settings.Valid) {epsilon zero : ℝ}
    (hepsilon : 0 < epsilon) (hzero : 0 < zero) (searchFuel : Nat) :
    (∀ t, Searches problem settings { epsilon := .finite epsilon, zero := .finite zero } searchFuel
      s.bounds s.x t →
      ∃ l d g p, t.factor = .ofReals l d ∧ t.grad = ofReals g ∧ t.direction = ofReals p ∧
        Factor.IsUnitLower l ∧ (∀ i : Fin s.size, t.activeSet.fixed[i] = false → 0 < d i) ∧
        Factor.IsDirection l d g t.activeSet.fixed p ∧
        dotOver t.activeSet.free t.grad t.direction ≤ 0) ∧
    ∀ e, (solve problem settings { epsilon := .finite epsilon, zero := .finite zero } searchFuel
      s.bounds s.x).result = .error e → e.isUnsound = false := by
  have hE := tolerates_unsound hproblem
  have hfuel : Error.isUnsound (Error.outOfFuel : Error Extended) = false := rfl
  have hb := Input.allFinite_of_start hstart
  obtain ⟨x₀, hx₀⟩ := exists_ofReals_iff.mpr hfinite
  have hvalue := hproblem.start
  rw [hx₀] at hcheck hvalue ⊢
  constructor
  . intro t ht
    obtain ⟨l, d, g, p, hfactor, hg, hdirection, hl, hd, hp⟩ :=
      (Solver.searches_exact hE hsettings hepsilon hzero hb hcheck hvalue ht).direction
    refine ⟨l, d, g, p, hfactor, hg, hdirection, hl, hd, hp, ?_⟩
    unfold ActiveSet.free
    rw [hg, hdirection, dotOver_ofReals, sum_unmasked, zero_eq, finite_le]
    exact hp.slope_nonpos hd
  . exact (Solver.solve_exact (E := (·.isUnsound = false)) hfuel hE hsettings hepsilon hzero hb
      hcheck hvalue searchFuel fun _ _ _ _ _ _ _ _ _ => rfl).error

theorem Problem.IsParabola.isFiniteFrom {p : Problem Extended 1} {a m : ℝ} (hp : p.IsParabola a m)
    (x₀ : ℝ) : p.IsFiniteFrom (Line.point x₀) where
  objective := by
    intro x v hv
    rw [Line.eq_point, hp.objective] at hv
    cases hv
    exact Or.inr ⟨_, rfl⟩
  start := by
    intro v hv
    rw [hp.objective] at hv
    cases hv
    exact ⟨_, rfl⟩
  gradient := by
    intro x g hg
    rw [Line.eq_point, hp.gradient] at hg
    cases hg
    exact ⟨_, rfl⟩

theorem solve_descends_bowl :
    (∃ l d g p, Bowl.third.factor = .ofReals l d ∧ Bowl.third.grad = ofReals g ∧
      Bowl.third.direction = ofReals p ∧ Factor.IsUnitLower l ∧
      (∀ i : Fin 1, Bowl.third.activeSet.fixed[i] = false → 0 < d i) ∧
      Factor.IsDirection l d g Bowl.third.activeSet.fixed p ∧
      dotOver Bowl.third.activeSet.free Bowl.third.grad Bowl.third.direction ≤ 0) ∧
    ∀ e, (solve Bowl.problem (Bowl.settings 3) Line.precision 100 (Line.above 0) (Line.point 3)).result =
      .error e → e.isUnsound = false := by
  have hsearches : Searches Bowl.problem (Bowl.settings 3) Line.precision 100 (Line.above 0) (Line.point 3)
      Bowl.third :=
    ⟨_, _, Bowl.runs 3 100 Bowl.isParabola, Bowl.visited_third 3 99 Bowl.isParabola le_rfl⟩
  have hdescends := solve_descends Line.start_input Line.checkStart_above (Line.isFinite_point 3)
    (Bowl.isParabola.isFiniteFrom 3) (Bowl.settings_valid three_pos) Line.epsilon_pos Line.zero_pos 100
  exact ⟨hdescends.1 _ hsearches, hdescends.2⟩

end BoxDescent

import BoxDescent.Proofs.Exact.Direction
import BoxDescent.Proofs.Exact.Inverse
import BoxDescent.Proofs.Exact.Quadratic
import BoxDescent.Proofs.Exact.Solver
import BoxDescent.Proofs.Factor.Reset
import BoxDescent.Proofs.Solver.Freed

/-!
This module contains what the factors hold of fixed variables. A search that takes no step and an update of
the factors clear their rows and columns. But a step that ends at a bound does not, so if the factors are not
updated then, the new fixed variable keeps what it had while it was free, until the next round that clears
(`solve_clears`). This can be seen at the second search already (`Trough.solve_does_not_clear`), although the
direction is the same as without it.
-/

namespace BoxDescent

open Extended

namespace Factor

variable {n : Nat} {l : Fin n → Fin n → ℝ} {d : Fin n → ℝ}

theorem direction_restrict (fixed : Vector Bool n) (grad : Fin n → ℝ) :
    ((ofReals l d).restrict fixed).direction (BoxDescent.ofReals grad) fixed =
      (ofReals l d).direction (BoxDescent.ofReals grad) fixed := by
  rw [restrict_ofReals]
  apply direction_congr
  constructor
  . exact fun i j hi hj => freePart_of_free hi hj
  . exact fun i hi => if_neg (Bool.eq_false_iff.mp hi)
  . exact fun _ _ => rfl

theorem takesOut_updateFactor {α : Type} [Scalar α] {zero : α} {f g : Factor α n} {fixed : Vector Bool n}
    {gradChange : Vector α n} {curvature : α} {oldGrad : Vector α n} {slope : α}
    (h : Solver.updateFactor zero f fixed gradChange curvature oldGrad slope = .ok g) :
    TakesOut fixed g := by
  unfold Solver.updateFactor at h
  split at h
  . cases h
  . cases hfirst : f.update gradChange (1 / curvature) fixed zero with
    | error e =>
      rw [hfirst] at h
      cases h
    | ok f' =>
      rw [hfirst] at h
      exact takesOut_update h

end Factor

namespace Solver

section Clears

variable {α : Type} [Scalar α] {n : Nat}

inductive Iterate.Clears (t : Task α n) (s : Iterate α n) : Prop where
  -- Without a step the held variables are taken out one by one, and an update leaves out all of the mask.
  | snap {r : SearchResult α n} : (s.search t).result = .ok r → r.status = .zeroStep → Clears t s
  | update {r : SearchResult α n} {grad : Vector α n} {change : α} : s.Steps t r grad change →
    ¬s.Converges t r grad change →
    (s.progress r grad).isCurved t.precision.zero r.activeSet.free = true → Clears t s

inductive Lingers (t : Task α n) (s₀ : Iterate α n) : Iterate α n → Fin n → Prop where
  | joins {s s' : Iterate α n} {i : Fin n} : Visited t s₀ s → (s.pass t).result = .ok (.inl s') →
    ¬s.Clears t → s.activeSet.fixed[i] = false → s'.activeSet.fixed[i] = true → Lingers t s₀ s' i
  | stays {s s' : Iterate α n} {i : Fin n} : Lingers t s₀ s i → (s.pass t).result = .ok (.inl s') →
    ¬s.Clears t → s'.activeSet.fixed[i] = true → Lingers t s₀ s' i

variable {t : Task α n} {s₀ s s' : Iterate α n} {r : SearchResult α n} {grad : Vector α n} {change : α}

theorem Iterate.Steps.clears_iff (h : s.Steps t r grad change) : s.Clears t ↔
    ¬s.Converges t r grad change ∧
      (s.progress r grad).isCurved t.precision.zero r.activeSet.free = true := by
  constructor
  . intro hclears
    cases hclears with
    | snap hsearch hstatus =>
      rw [h.search, Except.ok.injEq] at hsearch
      rw [← hsearch] at hstatus
      exact absurd hstatus h.status
    | update h' hnot hcurved =>
      have hr := h'.search
      rw [h.search, Except.ok.injEq] at hr
      subst hr
      have hgrad := h'.gradient
      rw [h.gradient, Except.ok.injEq] at hgrad
      subst hgrad
      have hchange := h'.displacement
      rw [h.displacement, Except.ok.injEq] at hchange
      subst hchange
      exact ⟨hnot, hcurved⟩
  . exact fun hclears => .update h hclears.1 hclears.2

theorem factor_of_not_clears (hpass : (s.pass t).result = .ok (.inl s')) (h : ¬s.Clears t) :
    ∃ freed, s'.factor = s.factor.resetAll freed 1 ∧
      ∀ i : Fin n, s'.activeSet.fixed[i] = true → i ∉ freed := by
  cases pass_outcome hpass with
  | snap hsearch hstatus _ _ => exact absurd (.snap hsearch hstatus) h
  | step hsteps hnot hfactor hredirects =>
    obtain ⟨_, _, rfl⟩ := hredirects
    split at hfactor
    . next hcurved => exact absurd (hsteps.clears_iff.mpr ⟨hnot, hcurved⟩) h
    . exact ⟨[], hfactor, fun _ _ => List.not_mem_nil⟩
  | @release r _ _ _ kept toFree _ hsteps _ _ _ hredirects =>
    obtain ⟨_, _, rfl⟩ := hredirects
    refine ⟨toFree, rfl, ?_⟩
    intro i hi hmem
    have hfixed := ActiveSet.fixed_releaseAll r.x toFree { r.activeSet with indices := kept } i
    rw [if_pos hmem] at hfixed
    exact Bool.noConfusion (hfixed.symm.trans hi)

theorem Lingers.fixed {i : Fin n} (h : Lingers t s₀ s i) : s.activeSet.fixed[i] = true := by
  cases h with
  | joins _ _ _ _ hi => exact hi
  | stays _ _ _ hi => exact hi

section Keeps

variable [Scalar.Lawful α] {b : Bounds α n} (hc : b.crossed = false) (hb : b.AllFinite)
  (hp : t.precision.Positive)
include hc hp

theorem isReset_of_clears (hkeeps : s.Keeps b) (hpass : (s.pass t).result = .ok (.inl s'))
    (h : s.Clears t) {i : Fin n} (hi : s'.activeSet.fixed[i] = true) : s'.factor.IsReset i 0 := by
  cases pass_outcome hpass with
  | snap hsearch _ _ hredirects =>
    obtain ⟨_, _, rfl⟩ := hredirects
    exact Factor.isReset_resetAll s.factor (((hkeeps.search hc hp hsearch).holds.mem i).mpr hi) 0
  | step hsteps _ hfactor hredirects =>
    obtain ⟨_, _, rfl⟩ := hredirects
    rw [if_pos (hsteps.clears_iff.mp h).2] at hfactor
    exact Factor.takesOut_iff.mp (Factor.takesOut_updateFactor hfactor) i hi
  | release hsteps hconverges _ _ _ => exact absurd hconverges (hsteps.clears_iff.mp h).1

include hb

theorem Visited.isReset_or_lingers (h₀ : s₀.Keeps b) (hfree : ∀ i : Fin n, s₀.activeSet.fixed[i] = false)
    (h : Visited t s₀ s) : ∀ i : Fin n, s.activeSet.fixed[i] = true →
      s.factor.IsReset i 0 ∨ Lingers t s₀ s i := by
  induction h with
  | start _ =>
    intro i hi
    rw [hfree i] at hi
    cases hi
  | @pass s s' hvisited hpass _ ih =>
    intro i hi
    -- A round that does not clear leaves a variable that was fixed before as it was, cleared or not.
    by_cases hclears : s.Clears t
    . have hkeeps := visited_keeps hc hb hp h₀ hvisited
      exact Or.inl (isReset_of_clears hc hp hkeeps hpass hclears hi)
    . cases hbefore : s.activeSet.fixed[i] with
      | false => exact Or.inr (.joins hvisited hpass hclears hbefore hi)
      | true =>
        obtain ⟨freed, hfactor, hfreed⟩ := factor_of_not_clears hpass hclears
        cases ih i hbefore with
        | inl hreset =>
          rw [hfactor]
          exact Or.inl (hreset.resetAll (hfreed i hi) 1)
        | inr hlingers => exact Or.inr (.stays hlingers hpass hclears hi)

end Keeps

end Clears

variable {n : Nat} {t : Task Extended n} {s₀ s : Iterate Extended n}

theorem Lingers.diag_pos (hexact : ∀ s, Visited t s₀ s → s.IsExact) {i : Fin n} (h : Lingers t s₀ s i) :
    ∃ d, 0 < d ∧ s.factor.diag[i] = .finite d := by
  induction h with
  | joins hvisited hpass hclears hfree hi =>
    obtain ⟨freed, hfactor, hfreed⟩ := factor_of_not_clears hpass hclears
    obtain ⟨l, d, _, _, hreals, _, _, _, hd, _⟩ := (hexact _ hvisited).direction
    refine ⟨d _, hd _ hfree, ?_⟩
    rw [hfactor, Factor.diag_resetAll_of_not_mem (hfreed _ hi), hreals]
    exact getElem_ofReals d _
  | stays _ hpass hclears hi ih =>
    obtain ⟨freed, hfactor, hfreed⟩ := factor_of_not_clears hpass hclears
    rw [hfactor, Factor.diag_resetAll_of_not_mem (hfreed _ hi)]
    exact ih

theorem visited_direction {b : Bounds Extended n} {x : Vector Extended n} {value : Extended}
    {g : Fin n → ℝ} (h : Visited t (start b x value (ofReals g)) s) :
    s.factor.direction s.grad s.activeSet.fixed = .ok s.direction := by
  cases h with
  | start _ =>
    have hfree : ∀ i : Fin n, (start b x value (ofReals g)).activeSet.fixed[i] = false :=
      getElem_replicate false
    rw [start_direction]
    refine (Factor.direction_identity _ g).trans ?_
    rw [Except.ok.injEq, ofReals_inj]
    funext i
    exact if_neg (Bool.eq_false_iff.mp (hfree i))
  | pass _ hpass _ =>
    obtain ⟨_, _, harrives⟩ := (pass_point t _).value _ hpass
    exact harrives.direction

end Solver

/-- In exact arithmetic the row and the column of a fixed variable are cleared at a search if and only if
nothing of it lingers. What lingers has a positive entry of `D`, but the direction of the search is the one
of the factors without it. -/
theorem solve_clears {x : Grid Extended} {lower upper : Option (Grid Extended)} {s : Input.Start Extended}
    (hstart : Input.start x lower upper = .ok s) (hcheck : s.bounds.checkStart s.x = .ok ())
    (hfinite : ∀ i : Fin s.size, Scalar.isFinite s.x[i] = true) {problem : Problem Extended s.size}
    (hproblem : problem.IsFiniteFrom s.x) {settings : Settings Extended} (hsettings : settings.Valid)
    {epsilon zero : ℝ} (hepsilon : 0 < epsilon) (hzero : 0 < zero) {searchFuel : Nat}
    {t : Solver.Task Extended s.size} {u₀ u : Solver.Iterate Extended s.size}
    (hruns : Runs problem settings { epsilon := .finite epsilon, zero := .finite zero } searchFuel s.bounds
      s.x t u₀) (hvisited : Solver.Visited t u₀ u) :
    (∀ i : Fin s.size, u.activeSet.fixed[i] = true →
      (u.factor.IsReset i 0 ↔ ¬Solver.Lingers t u₀ u i)) ∧
    (∀ i : Fin s.size, Solver.Lingers t u₀ u i →
      u.activeSet.fixed[i] = true ∧ ∃ d, 0 < d ∧ u.factor.diag[i] = .finite d) ∧
    (u.factor.restrict u.activeSet.fixed).direction u.grad u.activeSet.fixed = .ok u.direction := by
  have hE := tolerates_unsound hproblem
  have hb := Input.allFinite_of_start hstart
  have hc := (Bounds.checkStart_eq_ok_iff.mp hcheck).1
  have h₀ := hruns.keeps hb hcheck
  obtain ⟨x₀, hx₀⟩ := exists_ofReals_iff.mpr hfinite
  obtain ⟨value, grad, hobjective, hgradient, rfl, rfl⟩ := hruns
  obtain ⟨f, rfl⟩ := hproblem.start value hobjective
  rw [hx₀] at hgradient
  obtain ⟨g, rfl⟩ := hproblem.gradient x₀ grad hgradient
  have ht := Solver.taskIsExact problem hsettings hepsilon hzero searchFuel g
  have hexact₀ : (Solver.start s.bounds s.x (.finite f) (ofReals g)).IsExact := by
    rw [hx₀]
    exact Solver.start_exact s.bounds x₀ g f
  have hexact := fun u h => (Solver.visited_exact hE ht hc hb h₀ hexact₀ (s := u) h).2
  have hfree : ∀ i : Fin s.size,
      (Solver.start s.bounds s.x (.finite f) (ofReals g)).activeSet.fixed[i] = false :=
    getElem_replicate false
  refine ⟨?_, fun i hi => ⟨hi.fixed, hi.diag_pos hexact⟩, ?_⟩
  . intro i hi
    constructor
    . intro hreset hlingers
      obtain ⟨d, hd, hdiag⟩ := hlingers.diag_pos hexact
      rw [hreset.diag, zero_eq, finite_inj] at hdiag
      exact hd.ne hdiag
    . exact (hvisited.isReset_or_lingers hc hb ht.parameters.positive h₀ hfree i hi).resolve_right
  . obtain ⟨l, d, g', p, hfactor, hgrad, _⟩ := (hexact u hvisited).direction
    rw [← Solver.visited_direction hvisited, hfactor, hgrad]
    exact Factor.direction_restrict _ g'

namespace Trough

noncomputable def twice : Settings Extended :=
  { Settings.default with maxIterations := 2 }

theorem twice_valid : twice.Valid :=
  Settings.valid_of_maxIterations two_pos

noncomputable def twiceTask : Solver.Task Extended 2 :=
  { problem := (objective 0).problem, settings := twice, precision := Line.precision, searchFuel := 100
    maxNorm := Solver.maxNorm twice 2 (point 7 0) }

theorem twice_runs :
    Runs (objective 0).problem twice Line.precision 100 box origin twiceTask (start 0) := by
  refine ⟨_, _, objective_eq ?_, gradient_eq ?_ ?_, rfl, rfl⟩
  . ring
  . norm_num
  . norm_num

theorem twice_steps : (start 0).Steps twiceTask (result 0) (point (-5) (-2)) (.finite 2) := by
  obtain ⟨hsearch, hstatus, hdisplacement, hgradient⟩ := steps (c := 0) 99
  exact ⟨hsearch, hstatus, hdisplacement, hgradient⟩

section Progress

noncomputable abbrev progress : Solver.Progress Extended 2 :=
  (start 0).progress (result 0) (point (-5) (-2))

theorem difference_eq (x y u v : ℝ) :
    Solver.difference (point x y) (point u v) = point (x - u) (y - v) := by
  unfold Solver.difference
  rw [eq_point_iff, getElem_vectorOfFn, getElem_vectorOfFn, point_zero, point_zero, point_one, point_one]
  exact ⟨rfl, rfl⟩

theorem displacement_eq : progress.displacement = point (-2) 0 := by
  show Solver.difference (point (-1 / 4) (-7 / 2)) (point (7 / 4) (-7 / 2)) = _
  rw [difference_eq]
  norm_num

theorem gradChange_eq : progress.gradChange = point 0 (-2) := by
  rw [eq_point_iff]
  show (Vector.ofFn fun i : Fin 2 => if (result 0).activeSet.fixed[i] then (0 : Extended)
      else (point (-5) (-2))[i] - (point 7 0)[i])[(0 : Fin 2)] = _ ∧
    (Vector.ofFn fun i : Fin 2 => if (result 0).activeSet.fixed[i] then (0 : Extended)
      else (point (-5) (-2))[i] - (point 7 0)[i])[(1 : Fin 2)] = _
  rw [getElem_vectorOfFn, getElem_vectorOfFn, point_one, point_one, finite_sub, sub_zero]
  exact ⟨rfl, rfl⟩

theorem curvature_eq : progress.curvature = .finite 0 := by
  show dotOver [1] progress.displacement progress.gradChange = _
  rw [displacement_eq, gradChange_eq, dotOver_second, zero_mul]

theorem totalCurvature_eq : progress.totalCurvature = .finite 24 := by
  have hheld : progress.heldCurvature = .finite 24 := by
    show progress.displacement[(0 : Fin 2)] *
      (Solver.difference (point (-5) (-2)) (point 7 0))[(0 : Fin 2)] = _
    rw [displacement_eq, difference_eq, point_zero, point_zero, finite_mul, finite_inj]
    norm_num
  unfold Solver.Progress.totalCurvature
  rw [curvature_eq, hheld, finite_add, zero_add]

theorem not_converges : ¬(start 0).Converges twiceTask (result 0) (point (-5) (-2)) (.finite 2) := by
  have hprecision : twiceTask.precision.zero = .finite (1 / 67108864) := rfl
  have hgradient : (1 / 67108864 : ℝ) ≤ 2 / max |0 + 33 / 8| 1 := by
    norm_num
  unfold Solver.Iterate.Converges Solver.Progress.converged
  rw [hprecision, gradientTest_eq, totalCurvature_eq, abs_finite, Bool.or_eq_true, decide_eq_true_eq,
    decide_eq_true_eq, finite_lt, finite_lt, finite_lt, not_or, not_or, not_lt, not_lt, not_lt]
  exact ⟨by norm_num, hgradient.trans (le_max_right _ _), by norm_num⟩

theorem not_isCurved : ¬progress.isCurved twiceTask.precision.zero (result 0).activeSet.free = true := by
  have hprecision : twiceTask.precision.zero = .finite (1 / 67108864) := rfl
  have hfree : (result 0).activeSet.free = [1] := rfl
  have hstill : normOver [1] progress.displacement = .finite 0 := by
    unfold normOver
    rw [displacement_eq, dotOver_second, mul_zero, sqrt_finite le_rfl, Real.sqrt_zero]
  have hgrad : normOver [1] progress.gradChange = .finite 2 := by
    unfold normOver
    rw [gradChange_eq, dotOver_second, sqrt_finite (by norm_num), finite_inj, neg_mul_neg,
      Real.sqrt_mul_self (by norm_num)]
  unfold Solver.Progress.isCurved
  rw [hprecision, hfree, curvature_eq, hstill, hgrad, finite_mul, finite_mul, pickMax_finite,
    Bool.not_eq_true', decide_eq_false_iff_not, not_not, finite_lt]
  norm_num

end Progress

theorem not_clears : ¬(start 0).Clears twiceTask :=
  fun h => not_isCurved (twice_steps.clears_iff.mp h).2

noncomputable def second : Solver.Iterate Extended 2 :=
  { (start 0).move (result 0) (point (-5) (-2)) with direction := point 0 2 }

theorem start_pass_second : ((start 0).pass twiceTask).result = .ok (.inl second) := by
  have hredirects : ((start 0).move (result 0) (point (-5) (-2))).Redirects second :=
    ⟨point 0 2, direction_eq (c := 0), rfl⟩
  apply Solver.pass_outcome_iff.mpr
  refine .step twice_steps not_converges ?_ hredirects
  rw [if_neg not_isCurved]

theorem visited_second : Solver.Visited twiceTask (start 0) second :=
  .pass (.start Nat.zero_lt_two) start_pass_second Nat.one_lt_two

theorem second_lingers : Solver.Lingers twiceTask (start 0) second 0 :=
  .joins (.start Nat.zero_lt_two) start_pass_second not_clears rfl rfl

theorem isFinite_origin (i : Fin 2) : Scalar.isFinite origin[i] = true :=
  exists_ofReals_iff.mp ⟨_, rfl⟩ i

theorem solve_clears_trough : ¬second.factor.IsReset 0 0 ∧
    (∃ d, 0 < d ∧ second.factor.diag[(0 : Fin 2)] = .finite d) ∧
    (second.factor.restrict second.activeSet.fixed).direction second.grad second.activeSet.fixed =
      .ok second.direction := by
  obtain ⟨hreset, hdiag, hdirection⟩ := solve_clears start_input checkStart_box isFinite_origin
    (isFiniteFrom 0) twice_valid (by norm_num) (by norm_num) twice_runs visited_second
  obtain ⟨hfixed, hpositive⟩ := hdiag (0 : Fin 2) second_lingers
  exact ⟨fun h => (hreset (0 : Fin 2) hfixed).mp h second_lingers, hpositive, hdirection⟩

theorem solve_does_not_clear :
    Input.start (.ofArray #[.finite (7 / 4), .finite (-7 / 2)]) (some (.ofArray #[.finite (-1 / 4), .nan]))
        none = .ok input ∧
      input.bounds.checkStart input.x = .ok () ∧ twice.Valid ∧ ∃ s : Solver.Iterate Extended 2,
        Searches (objective 0).problem twice Line.precision 100 input.bounds input.x s ∧
          s.activeSet.fixed[(0 : Fin 2)] = true ∧ s.factor.diag[(0 : Fin 2)] = 1 :=
  ⟨start_input, checkStart_box, twice_valid, second, ⟨_, _, twice_runs, visited_second⟩, rfl, rfl⟩

end Trough

end BoxDescent

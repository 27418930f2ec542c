import BoxDescent.Proofs.Exact.Quadratic
import BoxDescent.Proofs.Exact.Solver
import BoxDescent.Proofs.Solver.Freed

/-!
This module contains what is known of a point that passes as a minimum. In exact arithmetic the last
iteration has moved it, its gradient or the curvature by next to nothing (`Movement.IsNegligible`), and the
multipliers in the answer are the ones that the decision about the held variables was made on.
-/

namespace BoxDescent

open Extended

variable {n : Nat}

section Largest

theorem le_foldl_maximum (f : Fin n → ℝ) (is : List (Fin n)) : ∀ s m : ℝ,
    is.foldl (fun m i => Scalar.maximum m (.finite (f i))) (Extended.finite s) = .finite m →
    s ≤ m ∧ ∀ i ∈ is, f i ≤ m := by
  induction is with
  | nil =>
    intro s m h
    rw [List.foldl_nil, finite_inj] at h
    exact ⟨h.le, nofun⟩
  | cons i is ih =>
    intro s m h
    rw [List.foldl_cons, maximum_finite] at h
    obtain ⟨hmax, hall⟩ := ih _ m h
    refine ⟨(le_max_left _ _).trans hmax, ?_⟩
    intro j hj
    cases List.mem_cons.mp hj with
    | inl hji =>
      rw [hji]
      exact (le_max_right _ _).trans hmax
    | inr hj => exact hall j hj

namespace Solver

theorem le_displacement {x y : Fin n → ℝ} {change : Extended} {zero : ℝ}
    (h : displacement (ofReals x) (ofReals y) = .ok change) (hlt : change < .finite zero) (i : Fin n) :
    |x i - y i| / max |x i| 1 < zero := by
  obtain ⟨c, rfl⟩ : ∃ c, change = .finite c := by
    cases displacement_finite x y with
    | inl hfinite =>
      obtain ⟨c, hc, _⟩ := hfinite
      rw [hc, Except.ok.injEq] at h
      exact ⟨c, h.symm⟩
    | inr hempty =>
      rw [hempty.2] at h
      cases h
  rw [finite_lt] at hlt
  unfold displacement maximum? at h
  simp only [relativeChange_finite] at h
  cases hrange : List.finRange n with
  | nil =>
    rw [hrange] at h
    cases h
  | cons j js =>
    rw [hrange] at h
    obtain ⟨hj, hjs⟩ := le_foldl_maximum _ js _ c (Except.ok.inj h)
    have hi := List.mem_finRange i
    rw [hrange, List.mem_cons] at hi
    cases hi with
    | inl hij =>
      rw [hij]
      exact hj.trans_lt hlt
    | inr hi => exact (hjs i hi).trans_lt hlt

theorem le_gradientTest {g d : Fin n → ℝ} {f zero : ℝ} {free : List (Fin n)}
    (h : gradientTest (ofReals g) (ofReals d) (.finite f) free < .finite zero) {i : Fin n} (hi : i ∈ free) :
    |g i| * max |d i| 1 / max |f| 1 < zero := by
  have hentry : ∀ i : Fin n, Scalar.abs (ofReals g)[i] * Scalar.maximum (Scalar.abs (ofReals d)[i]) 1 /
      Scalar.pickMax (Scalar.abs (.finite f)) 1 = .finite (|g i| * max |d i| 1 / max |f| 1) := by
    intro i
    have hpos : max |f| 1 ≠ 0 := (lt_of_lt_of_le one_pos (le_max_right _ _)).ne'
    rw [getElem_ofReals, getElem_ofReals, abs_finite, abs_finite, abs_finite, one_eq, maximum_finite,
      pickMax_finite, finite_mul, finite_div hpos]
  unfold gradientTest at h
  simp only [hentry] at h
  obtain ⟨m, hm⟩ := maximumOver_finite free fun i => |g i| * max |d i| 1 / max |f| 1
  rw [hm, finite_lt] at h
  unfold maximumOver at hm
  exact ((le_foldl_maximum _ free 0 m hm).2 i hi).trans_lt h

end Solver

end Largest

namespace Solver

structure Movement (n : Nat) where
  start : Fin n → ℝ
  oldGrad : Fin n → ℝ
  x : Fin n → ℝ
  grad : Fin n → ℝ
  direction : Fin n → ℝ
  value : ℝ

namespace Movement

structure IsOf (m : Movement n) (p : Problem Extended n) (s : Iterate Extended n)
    (r : SearchResult Extended n) : Prop where
  start : s.x = ofReals m.start
  oldGrad : s.grad = ofReals m.oldGrad
  x : r.x = ofReals m.x
  grad : p.gradient r.x = .ok (ofReals m.grad)
  direction : r.direction = ofReals m.direction
  value : r.value = .finite m.value

def IsNegligible (m : Movement n) (zero : ℝ) (free : Finset (Fin n)) : Prop :=
  -- The point, the projected gradient and the curvature; one of the three is enough.
  (∀ i, |m.x i - m.start i| / max |m.x i| 1 < zero) ∨
    (∀ i ∈ free, |m.grad i| * max |m.direction i| 1 / max |m.value| 1 < zero) ∨
    |∑ i, (m.grad i - m.oldGrad i) * (m.x i - m.start i)| < zero

end Movement

theorem sum_masked (fixed : Vector Bool n) (f : Fin n → ℝ) :
    ((masked fixed).map f).sum = ∑ i ∈ Finset.univ.filter (· ∉ freeSet fixed), f i := by
  have hfinset : (masked fixed).toFinset = Finset.univ.filter (· ∉ freeSet fixed) := by
    ext i
    simp [mem_masked, mem_freeSet]
  have hnodup : (masked fixed).Nodup := (List.nodup_finRange n).filter _
  rw [← hfinset, List.sum_toFinset f hnodup]

variable {t : Task Extended n} {s : Iterate Extended n} {r : SearchResult Extended n} {m : Movement n}

theorem totalCurvature_finite (hm : m.IsOf t.problem s r) :
    (s.progress r (ofReals m.grad)).totalCurvature =
      .finite (∑ i, (m.grad i - m.oldGrad i) * (m.x i - m.start i)) := by
  have hu := progress_displacement hm.start hm.x (ofReals m.grad)
  have hv := progress_gradChange (r := r) m.grad hm.oldGrad
  have hheld : (s.progress r (ofReals m.grad)).heldCurvature = dotOver (masked r.activeSet.fixed)
      (s.progress r (ofReals m.grad)).displacement (difference (ofReals m.grad) s.grad) := rfl
  unfold Progress.totalCurvature
  rw [progress_curvature hu hv, hheld, hu, hm.oldGrad, difference_ofReals, dotOver_ofReals, sum_masked,
    finite_add, finite_inj, ← Finset.sum_filter_add_sum_filter_not Finset.univ
      (· ∈ freeSet r.activeSet.fixed)]
  congr 1
  . rw [Finset.filter_mem_eq_inter, Finset.univ_inter]
    apply Finset.sum_congr rfl
    intro i hi
    rw [if_neg (Bool.eq_false_iff.mp (mem_freeSet.mp hi)), mul_comm]
  . apply Finset.sum_congr rfl
    intro i _
    rw [mul_comm]

theorem Iterate.Converges.isNegligible {change : Extended} {zero : ℝ} (hm : m.IsOf t.problem s r)
    (hzero : t.precision.zero = .finite zero) (hchange : displacement r.x s.x = .ok change)
    (h : s.Converges t r (ofReals m.grad) change) :
    m.IsNegligible zero (freeSet r.activeSet.fixed) := by
  unfold Iterate.Converges Progress.converged at h
  rw [hzero, Bool.or_eq_true, decide_eq_true_eq, decide_eq_true_eq] at h
  cases h with
  | inl hdisplaced =>
    rw [hm.x, hm.start] at hchange
    exact Or.inl (le_displacement hchange hdisplaced)
  | inr h =>
    cases h with
    | inl hgradient =>
      have htest : (s.progress r (ofReals m.grad)).gradientTest =
          gradientTest (ofReals m.grad) r.direction r.value (unmasked r.activeSet.fixed) := rfl
      rw [htest, hm.direction, hm.value] at hgradient
      exact Or.inr (Or.inl fun i hi => le_gradientTest hgradient (mem_unmasked.mpr (mem_freeSet.mp hi)))
    | inr hcurvature =>
      rw [totalCurvature_finite hm, abs_finite, finite_lt] at hcurvature
      exact Or.inr (Or.inr hcurvature)

theorem mem_multipliers {a : ActiveSet Extended n} {x grad : Vector Extended n} {i : Fin n}
    {l : Extended} {ms : List (Fin n × Extended)} (h : multipliers a x grad = .ok ms) :
    (i, l) ∈ ms ↔ a.fixed[i] = true ∧ a.multiplier x grad i = .ok l := by
  rw [← mem_masked]
  unfold multipliers at h
  generalize masked a.fixed = is at h ⊢
  induction is generalizing ms with
  | nil =>
    cases h
    simp
  | cons j is ih =>
    rw [List.mapM_cons] at h
    cases hj : a.multiplier x grad j with
    | error e =>
      rw [hj] at h
      cases h
    | ok k =>
      cases hrest : is.mapM fun i => do
          let m ← a.multiplier x grad i
          return (i, m) with
      | error e =>
        rw [hj, hrest] at h
        cases h
      | ok rest =>
        rw [hj, hrest] at h
        cases h
        rw [List.mem_cons, ih hrest, List.mem_cons, Prod.mk.injEq]
        constructor
        . rintro (⟨rfl, rfl⟩ | ⟨hi, hl⟩)
          . exact ⟨.inl rfl, hj⟩
          . exact ⟨.inr hi, hl⟩
        . rintro ⟨rfl | hi, hl⟩
          . rw [hj, Except.ok.injEq] at hl
            exact .inl ⟨rfl, hl.symm⟩
          . exact .inr ⟨hi, hl⟩

variable {b : Bounds Extended n}

theorem multiplier_finite {a : ActiveSet Extended n} {x : Vector Extended n} {held : List (Fin n)}
    (ha : a.Holds b held x) (hb : b.AllFinite) (g : Fin n → ℝ) {i : Fin n} (hi : a.fixed[i] = true) :
    a.multiplier x (ofReals g) i = .ok (.finite (if b.reached i x[i] .upper then -g i else g i)) := by
  obtain ⟨k, hk⟩ := ha.multiplier hb (ofReals g) hi
  unfold ActiveSet.multiplier at hk ⊢
  rw [ha.bounds, getElem_ofReals] at hk ⊢
  split
  . rfl
  . next hupper =>
    rw [if_neg hupper] at hk
    split at hk
    . next hlower => rw [if_pos hlower]
    . cases hk

structure Iterate.Finishes (t : Task Extended n) (s : Iterate Extended n) (r : SearchResult Extended n)
    (m : Movement n) (step : Vector Extended n) (toFree : List (Fin n))
    (es : List (Fin n × Release.Estimate Extended)) (solution : Solution Extended n) : Prop where
  search : (s.search t).result = .ok r
  movement : m.IsOf t.problem s r
  change : ∃ change, displacement r.x s.x = .ok change ∧ s.Converges t r (ofReals m.grad) change
  newton : s.factor.direction (ofReals m.grad) r.activeSet.fixed = .ok step
  decided : Release.Decided (Release.estimate t.problem r.activeSet r.x (ofReals m.grad) step) s.toFree
    r.activeSet.indices toFree false es
  multipliers : ∃ kept, multipliers { r.activeSet with indices := kept } r.x (ofReals m.grad) =
    .ok solution.multipliers
  x : solution.x = r.x
  iterations : solution.iterations = s.iterations + 1
  history : solution.history = s.history ++ [r.value]

theorem finishes_of_pass {E : Error Extended → Prop} (hE : Tolerates E t.problem) (ht : t.IsExact)
    (hc : b.crossed = false) (hb : b.AllFinite) (hkeeps : s.Keeps b) (hs : s.IsExact)
    {solution : Solution Extended n} (h : (s.pass t).result = .ok (.inr solution)) :
    ∃ r m step toFree es, s.Finishes t r m step toFree es solution := by
  have hE' : Tolerates (fun _ => True) t.problem := hE.mono fun _ _ => trivial
  cases pass_outcome h with
  | @finish r grad change step kept toFree value ms hsteps hconverges hstep hselect _ hms =>
    have hr := (search_exact (E := fun _ => True) trivial hE' ht hb hkeeps hs).value r hsteps.search
    have hrkeeps := hkeeps.search hc ht.parameters.positive hsteps.search
    obtain ⟨x₀, hx₀⟩ := hs.x
    obtain ⟨x₁, hx₁⟩ := result_finite hb hrkeeps hr.free
    obtain ⟨_, _, g₀, _, _, hg₀, _⟩ := hs.direction
    obtain ⟨d, hd⟩ := hr.direction
    obtain ⟨f, hf⟩ := hr.value
    obtain ⟨g₁, rfl⟩ := hE.regular.gradient x₁ grad (by rw [← hx₁]; exact hsteps.gradient)
    obtain ⟨es, hdecided⟩ := Release.decision_decided hselect
    exact ⟨r, ⟨x₀, g₀, x₁, g₁, d, f⟩, step, toFree, es, hsteps.search,
      ⟨hx₀, hg₀, hx₁, hsteps.gradient, hd, hf⟩, ⟨change, hsteps.displacement, hconverges⟩, hstep, hdecided,
      ⟨kept, hms⟩, rfl, rfl, rfl⟩

namespace Iterate.Finishes

variable {step : Vector Extended n} {toFree : List (Fin n)}
  {es : List (Fin n × Release.Estimate Extended)} {solution : Solution Extended n}
  (h : s.Finishes t r m step toFree es solution) (hr : r.Keeps b s.activeSet s.x) (hb : b.AllFinite)
include h hr hb

theorem mem_multipliers {i : Fin n} {l : Extended} : (i, l) ∈ solution.multipliers ↔
    r.activeSet.fixed[i] = true ∧
      l = .finite (if b.reached i solution.x[i] .upper then -m.grad i else m.grad i) := by
  obtain ⟨kept, hms⟩ := h.multipliers
  rw [Solver.mem_multipliers hms, h.x]
  have hsame : ∀ i, { r.activeSet with indices := kept }.multiplier r.x (ofReals m.grad) i =
      r.activeSet.multiplier r.x (ofReals m.grad) i := fun _ => rfl
  rw [hsame]
  constructor
  . intro hi
    rw [multiplier_finite hr.holds hb m.grad hi.1] at hi
    exact ⟨hi.1, (Except.ok.inj hi.2).symm⟩
  . intro hi
    rw [multiplier_finite hr.holds hb m.grad hi.1, hi.2]
    exact ⟨hi.1, rfl⟩

theorem exists_estimate {i : Fin n} (hi : r.activeSet.fixed[i] = true) :
    ∃ e row, (i, e) ∈ es ∧ (t.problem.evalHessianRow r.x i).result = .ok row ∧
      e.first = .finite (if b.reached i solution.x[i] .upper then -m.grad i else m.grad i) ∧
      e.secondOrder = row.isSome ∧ e.change = row.elim 0 fun h => dotOver r.activeSet.free h step := by
  obtain ⟨e, he⟩ := h.decided.exists_estimate ((hr.holds.mem i).mpr hi)
  have hestimate := h.decided.estimates (i, e) he
  dsimp only at hestimate
  obtain ⟨row, hrow, hfirst, hsecond, hchange⟩ := Release.estimate_result hestimate
  refine ⟨e, row, he, hrow, ?_, hsecond, hchange⟩
  rw [multiplier_finite hr.holds hb m.grad hi, Except.ok.injEq] at hfirst
  rw [h.x]
  exact hfirst.symm

theorem negative_iff (hnone : t.problem.hessianRow = none) (i : Fin n) :
    (∃ l, (i, l) ∈ solution.multipliers ∧ l < 0) ↔ i ∈ toFree := by
  rw [h.decided.mem_toFree, hr.holds.mem]
  have hestimate : r.activeSet.fixed[i] = true →
      ∃ e, (Release.estimate t.problem r.activeSet r.x (ofReals m.grad) step i).result = .ok e ∧
        (e.isReleased = true ↔ (if b.reached i solution.x[i] .upper then -m.grad i else m.grad i) < 0) := by
    intro hi
    obtain ⟨e, row, he, hrow, hfirst, _, hchange⟩ := h.exists_estimate hr hb hi
    refine ⟨e, h.decided.estimates _ he, ?_⟩
    rw [Problem.evalHessianRow_of_none hnone] at hrow
    cases hrow
    rw [Release.isReleased_finite hfirst hchange, add_zero, abs_zero, mul_zero, min_self]
    constructor
    . exact fun h => h.1
    . exact fun h => ⟨h, h, abs_pos.mpr h.ne⟩
  constructor
  . intro hl
    obtain ⟨l, hmem, hneg⟩ := hl
    rw [h.mem_multipliers hr hb] at hmem
    obtain ⟨e, he, hiff⟩ := hestimate hmem.1
    rw [hmem.2, zero_eq, finite_lt] at hneg
    exact ⟨hmem.1, e, he, hiff.mpr hneg⟩
  . intro hi
    obtain ⟨hfixed, e, he, hreleased⟩ := hi
    obtain ⟨e', he', hiff⟩ := hestimate hfixed
    rw [he, Except.ok.injEq] at he'
    rw [← he'] at hiff
    exact ⟨_, (h.mem_multipliers hr hb).mpr ⟨hfixed, rfl⟩, finite_lt.mpr (hiff.mp hreleased)⟩

omit hr hb in
theorem same_of_no_rows (hnone : t.problem.hessianRow = none) :
    toFree = [] ∨ ∃ l, s.toFree = some l ∧ toFree.Perm l := by
  have hrows : ∀ p ∈ es, p.2.secondOrder = false := by
    intro p hp
    obtain ⟨row, hrow, _, hsecond, _⟩ := Release.estimate_result (h.decided.estimates p hp)
    rw [Problem.evalHessianRow_of_none hnone] at hrow
    cases hrow
    exact hsecond
  cases (h.decided.noRows hrows).mp rfl with
  | inl hnil => exact Or.inl hnil
  | inr hsame =>
    unfold Release.sameIndices at hsame
    split at hsame
    . next a l ha hl =>
      cases ha
      exact Or.inr ⟨l, hl, List.isPerm_iff.mp hsame⟩
    . cases hsame

theorem nonneg_or_freed (hnone : t.problem.hessianRow = none) :
    (∀ i l, (i, l) ∈ solution.multipliers → ¬l < 0) ∨ ∃ freed, s.toFree = some freed ∧
      ∀ i, (∃ l, (i, l) ∈ solution.multipliers ∧ l < 0) ↔ i ∈ freed := by
  have hnegative := h.negative_iff hr hb hnone
  cases h.same_of_no_rows hnone with
  | inl hnil =>
    refine Or.inl ?_
    intro i l hmem hneg
    have hi := (hnegative i).mp ⟨l, hmem, hneg⟩
    rw [hnil] at hi
    cases hi
  | inr hsame =>
    obtain ⟨freed, hfreed, hperm⟩ := hsame
    refine Or.inr ⟨freed, hfreed, ?_⟩
    intro i
    exact (hnegative i).trans hperm.mem_iff

theorem unreleased_of_rows {row : Vector Extended n → Fin n → Except (Fault Extended)
      (Option (Vector Extended n))} (hrow : t.problem.hessianRow = some row)
    (hfull : ∀ x i h, row (ofReals x) i = .ok h → ∃ w, h = some (ofReals w)) {p : Fin n → ℝ}
    (hp : step = ofReals p) {i : Fin n} {first : ℝ} (hi : (i, .finite first) ∈ solution.multipliers) :
    ∃ w, row solution.x i = .ok (some (ofReals w)) ∧
      let second := first + ∑ j ∈ freeSet r.activeSet.fixed, w j * p j
      ¬(first < 0 ∧ second < 0 ∧ 2 * |second - first| < min |first| |second|) := by
  have hrowAt : ∀ j h, (t.problem.evalHessianRow r.x j).result = .ok h →
      row r.x j = .ok h ∧ ∃ w, h = some (ofReals w) := by
    intro j h' hh
    have hat := (Problem.evalHessianRow_ok_iff hrow).mp hh
    refine ⟨hat, ?_⟩
    rw [h.movement.x] at hat
    exact hfull _ j _ hat
  have hnil : toFree = [] := by
    apply (h.decided.rows _).mp rfl
    intro q hq
    obtain ⟨row', hrow', _, hsecond, _⟩ := Release.estimate_result (h.decided.estimates q hq)
    obtain ⟨_, w, rfl⟩ := hrowAt _ _ hrow'
    exact hsecond
  rw [h.mem_multipliers hr hb, finite_inj] at hi
  obtain ⟨e, row', he, hrow', hfirst, _, hchange⟩ := h.exists_estimate hr hb hi.1
  obtain ⟨hat, w, rfl⟩ := hrowAt _ _ hrow'
  refine ⟨w, ?_, ?_⟩
  . rw [h.x]
    exact hat
  . dsimp only at hchange ⊢
    unfold ActiveSet.free at hchange
    rw [hp, Option.elim_some, dotOver_ofReals, sum_unmasked] at hchange
    rw [← hi.2] at hfirst
    rw [add_sub_cancel_left, ← Release.isReleased_finite hfirst hchange]
    intro hreleased
    have hmem := h.decided.mem_toFree.mpr
      ⟨(hr.holds.mem i).mpr hi.1, e, h.decided.estimates _ he, hreleased⟩
    rw [hnil] at hmem
    cases hmem

end Iterate.Finishes

end Solver

/-- A solution that has converged comes from a last iteration that changed next to nothing. Without a
Hessian the held variables with negative multipliers are none, or they are those that the run freed the last
time. If the Hessian has all its rows, there is no held variable whose multiplier is negative both at the
solution and, as estimated, after the quasi-Newton step from there, with a small difference. -/
theorem solve_certifies {x : Grid Extended} {lower upper : Option (Grid Extended)}
    {s : Input.Start Extended} (hstart : Input.start x lower upper = .ok s)
    (hcheck : s.bounds.checkStart s.x = .ok ()) (hfinite : ∀ i : Fin s.size, Scalar.isFinite s.x[i] = true)
    {problem : Problem Extended s.size} (hproblem : problem.IsFiniteFrom s.x)
    {settings : Settings Extended} (hsettings : settings.Valid) {epsilon zero : ℝ}
    (hepsilon : 0 < epsilon) (hzero : 0 < zero) (searchFuel : Nat) :
    ∀ solution, (solve problem settings { epsilon := .finite epsilon, zero := .finite zero } searchFuel
      s.bounds s.x).result = .ok solution → solution.status = .converged →
    ∃ t s₀ last r, ∃ m : Solver.Movement s.size,
      Runs problem settings { epsilon := .finite epsilon, zero := .finite zero } searchFuel s.bounds s.x
        t s₀ ∧
      Solver.Visited t s₀ last ∧ (last.search t).result = .ok r ∧ m.IsOf problem last r ∧
      solution.x = r.x ∧ solution.iterations = last.iterations + 1 ∧
      solution.history = last.history ++ [r.value] ∧
      m.IsNegligible zero (freeSet r.activeSet.fixed) ∧
      (∀ i l, (i, l) ∈ solution.multipliers ↔ r.activeSet.fixed[i] = true ∧
        l = .finite (if s.bounds.reached i solution.x[i] .upper then -m.grad i else m.grad i)) ∧
      (problem.hessianRow = none →
        (∀ i l, (i, l) ∈ solution.multipliers → ¬l < 0) ∨
        ∃ freed, Solver.LastFreed t s₀ last freed ∧
          ∀ i, (∃ l, (i, l) ∈ solution.multipliers ∧ l < 0) ↔ freed i) ∧
      ∀ row, problem.hessianRow = some row →
        (∀ y i h, row (ofReals y) i = .ok h → ∃ w, h = some (ofReals w)) →
        ∃ l d p, last.factor = .ofReals l d ∧ Factor.IsUnitLower l ∧
          (∀ i : Fin s.size, r.activeSet.fixed[i] = false → 0 < d i) ∧
          Factor.IsDirection l d m.grad r.activeSet.fixed p ∧
          ∀ i first, (i, .finite first) ∈ solution.multipliers →
            ∃ w, row solution.x i = .ok (some (ofReals w)) ∧
              let second := first + ∑ j ∈ freeSet r.activeSet.fixed, w j * p j
              ¬(first < 0 ∧ second < 0 ∧ 2 * |second - first| < min |first| |second|) := by
  intro solution hsolution hstatus
  have hE := tolerates_unsound hproblem
  have hb := Input.allFinite_of_start hstart
  have hp : ({ epsilon := .finite epsilon, zero := .finite zero } : Precision Extended).Positive :=
    ⟨finite_lt.mpr hepsilon, finite_lt.mpr hzero⟩
  obtain ⟨x₀, hx₀⟩ := exists_ofReals_iff.mpr hfinite
  have hvalue := hproblem.start
  rw [hx₀] at hcheck hvalue hsolution ⊢
  have hc := (Bounds.checkStart_eq_ok_iff.mp hcheck).1
  obtain ⟨t, s₀, rs, last, found, hruns, hrounds, hkeeps, hends, _, _, rfl⟩ :=
    solve_ends hb hcheck hp hsolution
  have h₀ := hruns.keeps hb hcheck
  have hruns' := hruns
  obtain ⟨value, grad, _, hgradient, rfl, rfl⟩ := hruns
  cases hends with
  | inr hexhausted =>
    -- The solver says that the budget is used up, not that it has converged.
    obtain ⟨ms, _, rfl⟩ := Solver.solution_eq hexhausted.2
    cases hstatus
  | inl hlast =>
    obtain ⟨hlt, hpass⟩ := hlast
    have hvisited := hrounds.visited hlt
    have hexact := Solver.searches_exact hE hsettings hepsilon hzero hb hcheck hvalue
      ⟨_, _, hruns', hvisited⟩
    obtain ⟨g, rfl⟩ := hproblem.gradient x₀ grad hgradient
    obtain ⟨r, m, step, toFree, es, hfinishes⟩ := Solver.finishes_of_pass hE
      (Solver.taskIsExact problem hsettings hepsilon hzero searchFuel g) hc hb hkeeps hexact hpass
    have hr := hkeeps.search hc hp hfinishes.search
    refine ⟨_, _, last, r, m, hruns', hvisited, hfinishes.search, hfinishes.movement, hfinishes.x,
      hfinishes.iterations, hfinishes.history, ?_, fun i l => hfinishes.mem_multipliers hr hb, ?_, ?_⟩
    . obtain ⟨change, hchange, hconverges⟩ := hfinishes.change
      exact hconverges.isNegligible hfinishes.movement rfl hchange
    . intro hnone
      apply (hfinishes.nonneg_or_freed hr hb hnone).imp_right
      intro hsame
      obtain ⟨freed, hfreed, hnegative⟩ := hsame
      exact ⟨(· ∈ freed), hvisited.lastFreed hc hb hp h₀ rfl freed hfreed, hnegative⟩
    . intro row hrow hfull
      -- The second estimates are made with the step that the factors of the last iterate give.
      obtain ⟨l, d, _, _, hfactor, _, _, hl, hd, _⟩ := hexact.direction
      have hd' : ∀ i : Fin s.size, r.activeSet.fixed[i] = false → 0 < d i :=
        fun i hi => hd i (Solver.free_of_result hkeeps hr hi)
      obtain ⟨p, hnewton, hdirection⟩ := Factor.direction_ofReals hl hd' m.grad
      have hstep := hfinishes.newton
      rw [hfactor, hnewton, Except.ok.injEq] at hstep
      refine ⟨l, d, p, hfactor, hl, hd', hdirection, ?_⟩
      intro i first hi
      exact hfinishes.unreleased_of_rows hr hb hrow hfull hstep.symm hi

theorem solve_certifies_trough : ∃ solution, (solve (Trough.objective (2 ^ 28)).problem Trough.settings
    Line.precision 1 Trough.box Trough.origin).result = .ok solution ∧ solution.status = .converged ∧
    solution.multipliers = [(0, .finite (-5))] ∧ ∃ last r, ∃ m : Solver.Movement 2,
      m.IsOf (Trough.objective (2 ^ 28)).problem last r ∧ solution.x = r.x ∧
      m.IsNegligible (1 / 67108864) (freeSet r.activeSet.fixed) ∧
      ∃ l d p, last.factor = .ofReals l d ∧ Factor.IsDirection l d m.grad r.activeSet.fixed p ∧
        let second := -5 + ∑ j ∈ freeSet r.activeSet.fixed, Trough.matrix 0 j * p j
        ¬((-5 : ℝ) < 0 ∧ second < 0 ∧ 2 * |second - -5| < min |(-5 : ℝ)| |second|) := by
  obtain ⟨_, _, hsolve⟩ := Trough.solve_found le_rfl 0
  have hx : ∀ i : Fin 2, Scalar.isFinite Trough.origin[i] = true := exists_ofReals_iff.mp ⟨_, rfl⟩
  obtain ⟨t, s₀, last, r, m, _, _, _, hm, hat, _, _, hnegligible, _, _, hrows⟩ :=
    solve_certifies Trough.start_input Trough.checkStart_box hx (Trough.isFiniteFrom _)
      Trough.settings_valid (by norm_num) (by norm_num) 1 _ hsolve rfl
  obtain ⟨l, d, p, hfactor, _, _, hdirection, hall⟩ := hrows _ rfl (by
    intro _ i h hrow
    cases hrow
    exact ⟨Trough.matrix i, congrArg some (getElem_squareOfReals _ i)⟩)
  obtain ⟨w, hw, hnot⟩ := hall (0 : Fin 2) (-5) List.mem_cons_self
  have hrow : Trough.matrix 0 = w :=
    ofReals_inj.mp ((getElem_squareOfReals _ _).symm.trans (Option.some.inj (Except.ok.inj hw)))
  rw [← hrow] at hnot
  exact ⟨_, hsolve, rfl, rfl, last, r, m, hm, hat, hnegligible, l, d, p, hfactor, hdirection, hnot⟩

end BoxDescent

import BoxDescent.Proofs.Solver.Feasible
import BoxDescent.Proofs.Exact.Round
import BoxDescent.Proofs.Exact.Search

/-!
This module contains one round of the solver in exact arithmetic. The factors are positive on the free
variables at every search, so that the direction solves the equation of Newton's method and never ascends
(`Iterate.IsExact`), and a round only fails where the problem does, or with factors that its update made
singular at the last variable (`pass_exact`).
-/

namespace BoxDescent

open Extended

namespace Solver

variable {n : Nat} {b : Bounds Extended n} {E : Error Extended → Prop}

structure Tolerates (E : Error Extended → Prop) (p : Problem Extended n) : Prop where
  regular : p.IsRegular E
  hessian : ∀ x i, (p.evalHessianRow (ofReals x) i).Meets (fun _ => True) E fun _ => True
  empty : n = 0 → E (.fault .mismatch)

theorem Tolerates.mono {E' : Error Extended → Prop} {p : Problem Extended n} (h : Tolerates E p)
    (hE : ∀ e, E e → E' e) : Tolerates E' p where
  regular := {
    objective := h.regular.objective
    gradient := h.regular.gradient
    tolerates := ⟨fun x e he => hE _ (h.regular.tolerates.objective x e he),
      fun x e he => hE _ (h.regular.tolerates.gradient x e he)⟩ }
  hessian := fun x i => (h.hessian x i).mono (fun _ h => h) hE fun _ h => h
  empty := fun hn => hE _ (h.empty hn)

def ToleratesSingular (E : Error Extended → Prop) (fixed : Vector Bool n) (f : Factor Extended n) :
    Prop :=
  ∀ (j : Fin n) (rhs : Extended), Factor.Decrease.isLast j = true → fixed[j] = false → f.diag[j] = 0 →
    E (.breakdown (.direction .forward j rhs 0))

structure Task.IsExact (t : Task Extended n) : Prop where
  parameters : (t.settings.searchParameters t.precision).IsExact
  maxNorm : LineSearch.IsLimit t.maxNorm

structure Iterate.IsPrepared (s : Iterate Extended n) : Prop where
  x : ∃ x, s.x = ofReals x
  value : ∃ f, s.value = .finite f
  grad : ∃ g, s.grad = ofReals g
  factor : ∃ l d, s.factor = .ofReals l d ∧ Factor.IsUnitLower l ∧
    ∀ i : Fin n, s.activeSet.fixed[i] = false → 0 < d i

/-- Finite data, with the direction that the factors and the gradient determine. -/
structure Iterate.IsExact (s : Iterate Extended n) : Prop where
  x : ∃ x, s.x = ofReals x
  value : ∃ f, s.value = .finite f
  direction : ∃ l d g p, s.factor = .ofReals l d ∧ s.grad = ofReals g ∧ s.direction = ofReals p ∧
    Factor.IsUnitLower l ∧ (∀ i : Fin n, s.activeSet.fixed[i] = false → 0 < d i) ∧
    Factor.IsDirection l d g s.activeSet.fixed p

theorem Task.IsExact.exists_zero {t : Task Extended n} (ht : t.IsExact) :
    ∃ zero, t.precision.zero = .finite zero ∧ 0 < zero := by
  obtain ⟨zero, hzero⟩ := ht.parameters.zero
  have hprecision : t.precision.zero = .finite zero := hzero
  have hpos : (0 : Extended) < t.precision.zero := ht.parameters.positive.zero
  rw [hprecision, zero_eq, finite_lt] at hpos
  exact ⟨zero, hprecision, hpos⟩

theorem redirect_prepared {s : Iterate Extended n} (hs : s.IsPrepared) :
    s.redirect.Meets (fun _ => True) E (·.IsExact) := by
  obtain ⟨g, hg⟩ := hs.grad
  obtain ⟨l, d, hfactor, hl, hd⟩ := hs.factor
  obtain ⟨p, hdirection, hp⟩ := Factor.direction_ofReals hl hd g
  unfold Iterate.redirect
  rw [hfactor, hg, hdirection]
  apply Logged.Meets.bind Logged.meets_ofExcept_ok
  intro direction hp'
  apply meets_note_bind trivial
  apply Logged.meets_pure
  exact ⟨hs.x, hs.value, l, d, g, p, rfl, rfl, hp', hl, hd, hp⟩

theorem redirect_singular {s : Iterate Extended n} {l : Fin n → Fin n → ℝ} {d g : Fin n → ℝ}
    (hgrad : s.grad = ofReals g) (hfactor : s.factor = .ofReals l d) (hl : Factor.IsUnitLower l)
    (hd : ∀ i : Fin n, s.activeSet.fixed[i] = false → Factor.Decrease.isLast i = false → 0 < d i)
    {j : Fin n} (hfree : s.activeSet.fixed[j] = false) (hzero : d j = 0) :
    s.redirect.result = .error (.breakdown (.direction .forward j (.finite (-g j)) 0)) := by
  have hdirection := Factor.direction_singular hl hfree hzero (fun i hij hi =>
    (hd i hi (Factor.Decrease.not_isLast_of_lt hij)).ne') g
  unfold Iterate.redirect
  rw [Logged.result_bind, Logged.result_ofExcept, hfactor, hgrad, hdirection]
  rfl

section Pass

variable {t : Task Extended n} {s : Iterate Extended n} {r : SearchResult Extended n}

theorem search_exact (hfuel : E .outOfFuel) (hE : Tolerates E t.problem) (ht : t.IsExact) (hb : b.AllFinite)
    (hkeeps : s.Keeps b) (hs : s.IsExact) :
    (s.search t).Meets (fun _ => True) E (·.IsExact s.activeSet.fixed s.grad) := by
  obtain ⟨x, hx⟩ := hs.x
  obtain ⟨f, hf⟩ := hs.value
  obtain ⟨l, d, g, p, _, hg, hdirection, _, hd, hp⟩ := hs.direction
  unfold Iterate.search
  rw [hx, hf, hg, hdirection]
  exact LineSearch.search_exact hE.regular (LineSearch.allFinite_working hkeeps.holds hb) ht.maxNorm
    ht.parameters (hp.slope_nonpos hd) hfuel t.searchFuel

theorem result_finite (hb : b.AllFinite) (hkeeps : r.Keeps b s.activeSet s.x)
    (hfree : FiniteOn r.activeSet.fixed r.x) : ∃ x, r.x = ofReals x := by
  apply exists_ofReals
  intro i
  cases hi : r.activeSet.fixed[i] with
  | false => exact hfree i hi
  | true =>
    obtain ⟨side, hheld⟩ := hkeeps.holds.sits i hi
    exact isFinite_iff.mp (hb i side _ hheld.original)

theorem free_of_result (hs : s.Keeps b) (hr : r.Keeps b s.activeSet s.x) {i : Fin n}
    (hi : r.activeSet.fixed[i] = false) : s.activeSet.fixed[i] = false := by
  apply Bool.eq_false_iff.mpr
  intro hfixed
  have hmem : i ∈ r.activeSet.indices := by
    rw [hr.indices]
    exact List.mem_append_left _ ((hs.holds.mem i).mpr hfixed)
  rw [hr.holds.mem, hi] at hmem
  cases hmem

theorem move_prepared (hb : b.AllFinite) (hkeeps : s.Keeps b) (hs : s.IsExact)
    (hr : r.IsExact s.activeSet.fixed s.grad) (hrkeeps : r.Keeps b s.activeSet s.x) (g : Fin n → ℝ) :
    (s.move r (ofReals g)).IsPrepared := by
  obtain ⟨l, d, _, _, hfactor, _, _, hl, hd, _⟩ := hs.direction
  exact ⟨result_finite hb hrkeeps hr.free, hr.value, ⟨g, rfl⟩, l, d, hfactor, hl,
    fun i hi => hd i (free_of_result hkeeps hrkeeps hi)⟩

theorem evalGradient_exact {p : Problem Extended n} (hp : p.IsRegular E) (x : Fin n → ℝ) :
    (p.evalGradient (ofReals x)).Meets (fun _ => True) E fun g => ∃ w, g = ofReals w :=
  (hp.tolerates.evalGradient (ofReals x)).imp fun g hg => hp.gradient x g hg

theorem afterZeroStep_exact (hE : Tolerates E t.problem) (hb : b.AllFinite) (hkeeps : s.Keeps b)
    (hs : s.IsExact) (hr : r.IsExact s.activeSet.fixed s.grad) (hrkeeps : r.Keeps b s.activeSet s.x) :
    (s.afterZeroStep t r).Meets (fun _ => True) E (·.IsExact) := by
  obtain ⟨x, hx⟩ := result_finite hb hrkeeps hr.free
  obtain ⟨l, d, _, _, hfactor, _, _, hl, hd, _⟩ := hs.direction
  unfold Iterate.afterZeroStep
  have hgradient := evalGradient_exact hE.regular x
  rw [← hx] at hgradient
  apply Logged.Meets.bind hgradient
  intro grad hgrad
  apply redirect_prepared
  refine ⟨⟨x, hx⟩, hr.value, hgrad, Factor.withoutRows l r.activeSet.indices.toFinset,
    Factor.withEntries d r.activeSet.indices.toFinset 0, ?_, hl.withoutRows _, ?_⟩
  . dsimp only
    rw [hfactor, zero_eq, Factor.resetAll_ofReals]
  . intro i hi
    have hnot : i ∉ r.activeSet.indices.toFinset := by
      rw [List.mem_toFinset, hrkeeps.holds.mem, hi]
      exact Bool.noConfusion
    unfold Factor.withEntries
    rw [if_neg hnot]
    exact hd i (free_of_result hkeeps hrkeeps hi)

theorem release_exact (E' : Error Extended → Prop) {s : Iterate Extended n} (hs : s.IsPrepared)
    (toFree : List (Fin n)) : (s.release toFree).Meets (fun _ => True) E' (·.IsPrepared) := by
  unfold Iterate.release
  have hloop := Logged.meets_foldlM (L := fun (_ : Event Extended n) => True) (E := E')
    (f := fun (s : Iterate Extended n) (i : Fin n) => do
      note (.freeing s.iterations i.val)
      return { s with activeSet := s.activeSet.release i s.x[i], factor := s.factor.reset i 1 })
    (fun _ t => t.IsPrepared) toFree [] { s with toFree := some toFree }
    ⟨hs.x, hs.value, hs.grad, hs.factor⟩
  apply hloop
  intro _ i _ t _ ht
  obtain ⟨l, d, hfactor, hl, hd⟩ := ht.factor
  apply meets_note_bind trivial
  apply Logged.meets_pure
  refine ⟨ht.x, ht.value, ht.grad, Factor.withoutRow l i, Function.update d i 1, ?_, hl.withoutRow i, ?_⟩
  . dsimp only
    rw [hfactor, one_eq, Factor.reset_ofReals]
  . intro j hj
    by_cases hji : j = i
    . rw [hji, Function.update_self]
      exact one_pos
    . rw [Function.update_of_ne hji]
      apply hd
      simp only [ActiveSet.release, getElem_set] at hj
      rw [if_neg (Ne.symm hji)] at hj
      exact hj

theorem conclude_exact (hE : Tolerates E t.problem) (hb : b.AllFinite) (hkeeps : s.Keeps b)
    (hs : s.IsPrepared) (curved : Bool) :
    (s.conclude t curved).Meets (fun _ => True) E fun
      | .inl s' => s'.IsExact
      | .inr _ => True := by
  obtain ⟨x, hx⟩ := hs.x
  obtain ⟨g, hg⟩ := hs.grad
  obtain ⟨l, d, hfactor, hl, hd⟩ := hs.factor
  obtain ⟨p, hdirection, _⟩ := Factor.direction_ofReals hl hd g
  have hstep : s.factor.direction s.grad s.activeSet.fixed = .ok (ofReals p) := by
    rw [hfactor, hg, hdirection]
  unfold Iterate.conclude
  rw [hstep]
  apply Logged.Meets.bind Logged.meets_ofExcept_ok
  intro step _
  apply Logged.Meets.bind (Release.select_meets (E := E) (fun _ => trivial) hb hkeeps.holds t.problem _
    step s.toFree (by rw [hx]; exact hE.hessian x))
  intro decision hdecision
  apply Logged.Meets.bind (Logged.meets_ofExcept
    (Q := fun v => (v.1 ++ decision.indices).Perm s.activeSet.indices) hdecision.2
    fun verdict hverdict => hdecision.1 verdict.1 verdict.2 hverdict)
  intro verdict hverdict
  obtain ⟨toFree, released⟩ := verdict
  dsimp only
  have hholds := (hkeeps.holds.perm hverdict).withIndices decision.indices
  split
  . apply Logged.Meets.bind (release_exact E (s := {
        s with activeSet := { s.activeSet with indices := decision.indices } })
        ⟨hs.x, hs.value, hs.grad, hs.factor⟩ toFree)
    intro s' hs'
    split
    . apply meets_note_bind trivial
      apply Logged.Meets.bind (redirect_prepared hs')
      intro s'' hs''
      exact Logged.meets_pure hs''
    . apply Logged.Meets.bind (redirect_prepared hs')
      intro s'' hs''
      exact Logged.meets_pure hs''
  . have hvalue := hE.regular.tolerates.evalObjective (ofReals x)
    rw [← hx] at hvalue
    apply Logged.Meets.bind hvalue
    intro value _
    apply meets_note_bind trivial
    apply Logged.Meets.bind (solution_meets hb hholds .converged)
    intro solution _
    exact Logged.meets_pure trivial

end Pass

section Step

variable {t : Task Extended n} {s : Iterate Extended n} {r : SearchResult Extended n}

theorem relativeChange_finite (x y : Fin n → ℝ) (i : Fin n) :
    Scalar.abs ((ofReals x)[i] - (ofReals y)[i]) / Scalar.maximum (Scalar.abs (ofReals x)[i]) 1 =
      .finite (|x i - y i| / max |x i| 1) := by
  have hpos : max |x i| 1 ≠ 0 := (lt_of_lt_of_le one_pos (le_max_right _ _)).ne'
  rw [getElem_ofReals, getElem_ofReals, finite_sub, abs_finite, abs_finite, one_eq, maximum_finite,
    finite_div hpos]

theorem displacement_finite (x y : Fin n → ℝ) :
    (∃ change, displacement (ofReals x) (ofReals y) = .ok (.finite change) ∧ (x = y → change ≤ 0)) ∨
      n = 0 ∧ displacement (ofReals x) (ofReals y) = .error (.fault .mismatch) := by
  unfold displacement maximum?
  simp only [relativeChange_finite]
  cases hrange : List.finRange n with
  | nil =>
    refine Or.inr ⟨?_, rfl⟩
    rw [← List.length_finRange (n := n), hrange]
    rfl
  | cons i is =>
    obtain ⟨m, hm, hle⟩ := foldl_maximum_finite (fun i => |x i - y i| / max |x i| 1) is
      (|x i - y i| / max |x i| 1)
    refine Or.inl ⟨m, congrArg Except.ok hm, ?_⟩
    intro hxy
    apply hle 0
    . rw [hxy, sub_self, abs_zero, zero_div]
    . intro j _
      rw [hxy, sub_self, abs_zero, zero_div]

theorem displacementConverged_exact {precision : Precision Extended} {zero : ℝ}
    (hprecision : precision.zero = .finite zero) (hzero : 0 < zero) (hempty : n = 0 → E (.fault .mismatch))
    (x y : Fin n → ℝ) :
    (displacementConverged precision (ofReals x) (ofReals y)).Meets (fun _ => True) E
      fun converged => x = y → converged = true := by
  unfold displacementConverged
  cases displacement_finite x y with
  | inl hfinite =>
    obtain ⟨change, hchange, hle⟩ := hfinite
    rw [hchange, hprecision]
    apply Logged.Meets.bind Logged.meets_ofExcept_ok
    intro c hc
    rw [hc]
    split
    . apply meets_note_bind trivial
      exact Logged.meets_pure fun _ => rfl
    . next hnot =>
      apply Logged.meets_pure
      intro hxy
      rw [finite_lt, not_lt] at hnot
      have := hle hxy
      linarith
  | inr hmismatch =>
    rw [hmismatch.2]
    apply Logged.Meets.bind (Logged.meets_ofExcept (Q := fun _ => False) ?_ nofun)
    . intro c hc
      exact hc.elim
    . intro e he
      cases he
      exact hempty hmismatch.1

theorem curvature_pos {p : Progress Extended n} {zero c : ℝ} (hzero : 0 < zero) {u v : Fin n → ℝ}
    (hu : p.displacement = ofReals u) (hv : p.gradChange = ofReals v) (hc : p.curvature = .finite c)
    {free : List (Fin n)} (h : p.isCurved (.finite zero) free = true) : 0 < c := by
  unfold Progress.isCurved at h
  rw [Bool.not_eq_true', decide_eq_false_iff_not, hu, hv, hc, normOver_ofReals, normOver_ofReals,
    finite_mul, finite_mul, pickMax_finite, finite_lt, not_lt] at h
  exact hzero.trans_le ((le_max_right _ _).trans h)

theorem updateFactor_exact {zero : ℝ} (hzero : 0 < zero) {x₀ x₁ g₁ : Fin n → ℝ} (hx : s.x = ofReals x₀)
    (hr : r.x = ofReals x₁) (hfree : ∀ i : Fin n, r.activeSet.fixed[i] = false →
      s.activeSet.fixed[i] = false) (hs : s.IsExact) (hexact : r.IsExact s.activeSet.fixed s.grad)
    (haccepted : r.status = .accepted)
    (hcurved : (s.progress r (ofReals g₁)).isCurved (.finite zero) r.activeSet.free = true) :
    ∃ l d, updateFactor (.finite zero) s.factor r.activeSet.fixed
        (s.progress r (ofReals g₁)).gradChange (s.progress r (ofReals g₁)).curvature s.grad r.slope =
        .ok (.ofReals l d) ∧
      Factor.IsUnitLower l ∧ (∀ i : Fin n, r.activeSet.fixed[i] = false → 0 ≤ d i ∧
        (Factor.Decrease.isLast i = false → 0 < d i)) ∧
      (r.direction = s.direction → r.activeSet.fixed = s.activeSet.fixed →
        (∀ i : Fin n, r.activeSet.fixed[i] = false → r.x[i] = s.x[i] + r.step * r.direction[i]) →
        ∀ i : Fin n, r.activeSet.fixed[i] = false → 0 < d i) := by
  obtain ⟨l, d, g, p, hfactor, hg, hdirection, hl, hd, hp⟩ := hs.direction
  obtain ⟨q, hq⟩ := hexact.direction
  obtain ⟨hslope, step, hstep, hpos⟩ := hexact.accepted haccepted
  have hslope' := hexact.slope
  rw [hg, hq, dotOver_ofReals, sum_unmasked] at hslope'
  rw [hslope', zero_eq, finite_lt] at hslope
  have hu := progress_displacement hx hr (ofReals g₁)
  have hv := progress_gradChange (r := r) g₁ hg
  have hc := progress_curvature hu hv
  have hcpos := curvature_pos hzero hu hv hc hcurved
  obtain ⟨l', d', hupdate, hl', hd', halong⟩ := Factor.updateFactor_floored r.activeSet.fixed
    hzero hl (fun i hi => hd i (hfree i hi))
    (fun i => if r.activeSet.fixed[i] then 0 else g₁ i - g i) g hcpos hslope
  refine ⟨l', d', ?_, hl', hd', ?_⟩
  . rw [hfactor, hg, hv, hc, hslope', hupdate]
  . intro hsame hfixed hmoved
    -- The pair of updates is then the one along the direction of the iterate.
    have hpq : q = p := by
      rw [hq, hdirection, ofReals_inj] at hsame
      exact hsame
    subst hpq
    apply halong step q hpos
    . rw [hfixed]
      exact hp
    . apply Finset.sum_congr rfl
      intro i hi
      have hi' := hmoved i (mem_freeSet.mp hi)
      rw [hx, hr, hq, hstep, getElem_ofReals, getElem_ofReals, getElem_ofReals, finite_mul, finite_add,
        finite_inj] at hi'
      rw [hi']
      ring
    . rw [hfixed]

theorem redirect_exact {s : Iterate Extended n} (hx : ∃ x, s.x = ofReals x)
    (hvalue : ∃ f, s.value = .finite f) (hgrad : ∃ g, s.grad = ofReals g) {l : Fin n → Fin n → ℝ}
    {d : Fin n → ℝ} (hfactor : s.factor = .ofReals l d) (hl : Factor.IsUnitLower l)
    (hd : ∀ i : Fin n, s.activeSet.fixed[i] = false → 0 ≤ d i ∧
      (Factor.Decrease.isLast i = false → 0 < d i))
    (hsingular : ToleratesSingular E s.activeSet.fixed s.factor) :
    s.redirect.Meets (fun _ => True) E (·.IsExact) := by
  by_cases hsingular : ∃ j : Fin n, s.activeSet.fixed[j] = false ∧ d j = 0
  . obtain ⟨j, hfree, hzero⟩ := hsingular
    obtain ⟨g, hg⟩ := hgrad
    -- Only the last diagonal entry is without a floor.
    have hlast : Factor.Decrease.isLast j = true := by
      cases hj : Factor.Decrease.isLast j with
      | true => rfl
      | false =>
        have hpos := (hd j hfree).2 hj
        rw [hzero] at hpos
        exact absurd hpos (lt_irrefl 0)
    have herror := redirect_singular hg hfactor hl (fun i hi hnot => (hd i hi).2 hnot) hfree hzero
    refine ⟨fun _ _ => trivial, ?_, ?_⟩
    . intro e he
      rw [herror] at he
      cases he
      apply hsingular j _ hlast hfree
      rw [hfactor]
      show (ofReals d)[j] = 0
      rw [getElem_ofReals, hzero, zero_eq]
    . intro s' hs'
      rw [herror] at hs'
      cases hs'
  . apply redirect_prepared
    refine ⟨hx, hvalue, hgrad, l, d, hfactor, hl, ?_⟩
    intro i hi
    apply lt_of_le_of_ne (hd i hi).1
    intro hzero
    exact hsingular ⟨i, hi, hzero.symm⟩

theorem accepted_of_moved (hr : r.Keeps b s.activeSet s.x) (hstatus : r.status ≠ .zeroStep)
    (hmoved : r.x ≠ s.x) : r.status = .accepted := by
  cases hcase : r.status with
  | accepted => rfl
  | zeroStep => exact absurd hcase hstatus
  | stationary => exact absurd (hr.unmoved (Or.inl hcase)).1 hmoved
  | noProgress => exact absurd (hr.unmoved (Or.inr hcase)).1 hmoved

theorem afterStep_exact (hE : Tolerates E t.problem)
    (hsingular : ∀ r grad f, s.Updates t r grad f → ToleratesSingular E r.activeSet.fixed f)
    (ht : t.IsExact) (hb : b.AllFinite) (hkeeps : s.Keeps b) (hs : s.IsExact)
    (hsearch : (s.search t).result = .ok r) (hr : r.IsExact s.activeSet.fixed s.grad)
    (hrkeeps : r.Keeps b s.activeSet s.x) (hstatus : r.status ≠ .zeroStep) :
    (s.afterStep t r).Meets (fun _ => True) E fun
      | .inl s' => s'.IsExact
      | .inr _ => True := by
  obtain ⟨x₀, hx₀⟩ := hs.x
  obtain ⟨x₁, hx₁⟩ := result_finite hb hrkeeps hr.free
  obtain ⟨zero, hprecision, hpos⟩ := ht.exists_zero
  have hfree : ∀ i : Fin n, r.activeSet.fixed[i] = false → s.activeSet.fixed[i] = false :=
    fun i hi => free_of_result hkeeps hrkeeps hi
  unfold Iterate.afterStep
  dsimp only
  have hdisplaced := displacementConverged_exact (E := E) hprecision hpos hE.empty x₁ x₀
  rw [← hx₀, ← hx₁] at hdisplaced
  apply Logged.Meets.bind (hdisplaced.withValue (Logged.meets_self _))
  intro displaced hd'
  obtain ⟨hunmoved, hdisplacedResult⟩ := hd'
  have hgradient := evalGradient_exact hE.regular x₁
  rw [← hx₁] at hgradient
  apply Logged.Meets.bind (hgradient.withValue (Logged.meets_self _))
  intro grad hgrad
  obtain ⟨⟨g₁, hg₁⟩, hgradResult⟩ := hgrad
  apply Logged.Meets.bind (report_meets (fun _ => trivial) _ _ _)
  intro _ _
  have hprepared : (s.move r grad).IsPrepared := by
    rw [hg₁]
    exact move_prepared hb hkeeps hs hr hrkeeps g₁
  have hmoved : (s.move r grad).Keeps b := ⟨hrkeeps.holds, hrkeeps.separates⟩
  split
  . exact conclude_exact hE hb hmoved hprepared _
  . next hnot =>
    split
    . next hcurved =>
      rw [Bool.or_eq_true, not_or, Bool.not_eq_true, Bool.not_eq_true] at hnot
      -- A search that did not move has converged, and so it ends in the other branch.
      have haccepted := accepted_of_moved hrkeeps hstatus (by
        intro hsame
        rw [hx₀, hx₁, ofReals_inj] at hsame
        rw [hunmoved hsame] at hnot
        exact absurd hnot.1 (by decide))
      rw [hg₁, hprecision] at hcurved ⊢
      obtain ⟨l', d', hupdate, hl', hd', _⟩ :=
        updateFactor_exact hpos hx₀ hx₁ hfree hs hr haccepted hcurved
      have hupdates : s.Updates t r grad (.ofReals l' d') := by
        rw [hnot.1] at hdisplacedResult
        refine ⟨hsearch, hstatus, hdisplacedResult, hgradResult, hnot.2, ?_, ?_⟩
        . rw [hg₁, hprecision]
          exact hcurved
        . rw [hg₁, hprecision]
          exact hupdate
      rw [hupdate]
      apply Logged.Meets.bind Logged.meets_ofExcept_ok
      intro factor hfactor'
      apply Logged.Meets.bind (redirect_exact (s := { s.move r (ofReals g₁) with factor })
        ⟨x₁, hx₁⟩ hr.value ⟨g₁, rfl⟩ hfactor' hl' hd' (by
          dsimp only
          rw [hfactor']
          exact hsingular r grad _ hupdates))
      intro next hnext
      exact Logged.meets_pure hnext
    . apply meets_note_bind trivial
      apply Logged.Meets.bind (redirect_prepared hprepared)
      intro next hnext
      exact Logged.meets_pure hnext

theorem pass_exact (hfuel : E .outOfFuel) (hE : Tolerates E t.problem)
    (hsingular : ∀ r grad f, s.Updates t r grad f → ToleratesSingular E r.activeSet.fixed f)
    (ht : t.IsExact) (hc : b.crossed = false) (hb : b.AllFinite) (hkeeps : s.Keeps b)
    (hs : s.IsExact) : (s.pass t).Meets (fun _ => True) E fun
      | .inl s' => s'.IsExact
      | .inr _ => True := by
  unfold Iterate.pass
  apply meets_note_bind trivial
  apply Logged.Meets.bind (((search_exact hfuel hE ht hb hkeeps hs).withValue
    (search_meets hc ht.parameters.positive hkeeps)).withValue (Logged.meets_self _))
  intro r hr
  obtain ⟨⟨hexact, hrkeeps⟩, hsearch⟩ := hr
  split
  . apply Logged.Meets.bind (afterZeroStep_exact hE hb hkeeps hs hexact hrkeeps)
    intro next hnext
    exact Logged.meets_pure hnext
  . next hstatus => exact afterStep_exact hE hsingular ht hb hkeeps hs hsearch hexact hrkeeps hstatus

theorem Iterate.Updates.exact (hE : Tolerates E t.problem) (ht : t.IsExact) (hc : b.crossed = false)
    (hb : b.AllFinite) (hkeeps : s.Keeps b) (hs : s.IsExact) {grad : Vector Extended n}
    {f : Factor Extended n} (h : s.Updates t r grad f) :
    ∃ l d, f = .ofReals l d ∧ (∃ g, grad = ofReals g) ∧ Factor.IsUnitLower l ∧
      (∀ i : Fin n, r.activeSet.fixed[i] = false → 0 ≤ d i ∧
        (Factor.Decrease.isLast i = false → 0 < d i)) ∧
      (r.direction = s.direction → r.activeSet.fixed = s.activeSet.fixed →
        (∀ i : Fin n, r.activeSet.fixed[i] = false → r.x[i] = s.x[i] + r.step * r.direction[i]) →
        ∀ i : Fin n, r.activeSet.fixed[i] = false → 0 < d i) := by
  have hE' : Tolerates (fun _ => True) t.problem := hE.mono fun _ _ => trivial
  have hr := (search_exact (E := fun _ => True) trivial hE' ht hb hkeeps hs).value r h.search
  have hrkeeps := (search_meets hc ht.parameters.positive hkeeps).value r h.search
  obtain ⟨x₀, hx₀⟩ := hs.x
  obtain ⟨x₁, hx₁⟩ := result_finite hb hrkeeps hr.free
  obtain ⟨zero, hprecision, hpos⟩ := ht.exists_zero
  have hgrad := (evalGradient_exact hE'.regular x₁).value grad (by rw [← hx₁]; exact h.gradient)
  obtain ⟨g₁, rfl⟩ := hgrad
  have haccepted := accepted_of_moved hrkeeps h.status (by
    intro hsame
    have hdisplaced := displacementConverged_exact (E := fun _ => True) hprecision hpos
      (fun _ => trivial) x₁ x₀
    rw [← hx₁, ← hx₀] at hdisplaced
    rw [hx₁, hx₀, ofReals_inj] at hsame
    exact Bool.false_ne_true (hdisplaced.value false h.displaced hsame))
  have hcurved := h.curved
  have hfactor := h.factor
  rw [hprecision] at hcurved hfactor
  obtain ⟨l, d, hupdate, hl, hd, halong⟩ := updateFactor_exact hpos hx₀ hx₁
    (fun i hi => free_of_result hkeeps hrkeeps hi) hs hr haccepted hcurved
  rw [hupdate] at hfactor
  cases hfactor
  exact ⟨l, d, rfl, ⟨g₁, rfl⟩, hl, hd, halong⟩

theorem Iterate.Updates.pass_error (hE : Tolerates E t.problem) (ht : t.IsExact)
    (hc : b.crossed = false) (hb : b.AllFinite) (hkeeps : s.Keeps b) (hs : s.IsExact)
    {grad : Vector Extended n} {f : Factor Extended n} (h : s.Updates t r grad f) {i : Fin n}
    (hi : r.activeSet.fixed[i] = false) (hnot : ¬0 < f.diag[i]) : ∃ e, (s.pass t).result = .error e := by
  obtain ⟨l, d, rfl, ⟨g, rfl⟩, hl, hd, _⟩ := h.exact hE ht hc hb hkeeps hs
  have hdiag : (Factor.ofReals l d).diag[i] = .finite (d i) := getElem_ofReals d i
  rw [hdiag, zero_eq, finite_lt, not_lt] at hnot
  have hzero := le_antisymm hnot (hd i hi).1
  have hsingular := redirect_singular (s := { s.move r (ofReals g) with factor := .ofReals l d }) rfl rfl
    hl (fun j hj hnotLast => (hd j hj).2 hnotLast) hi hzero
  rw [h.pass_result, hsingular]
  exact ⟨_, rfl⟩

end Step

end Solver

end BoxDescent

import BoxDescent.Proofs.Solver.Point
import BoxDescent.Proofs.Solver.Progress
import BoxDescent.Proofs.Exact.Solver

/-!
This module contains why searches and runs end in exact arithmetic, whatever the objective and its gradient
answer. A limit on the norm of a step keeps a search from going down forever, so that it ends from every
value that other values can be compared with (`LineSearch.search_settles_of_limit`). A run ends if that is
so at each of its searches (`Solver.finishes_of_values`).
-/

namespace BoxDescent

open Extended

variable {n : Nat}

def Finishes {α β : Type} {n : Nat} (run : Nat → Run α n β) : Prop :=
  ∃ enough, ∀ fuel, enough ≤ fuel → (run fuel).result ≠ .error .outOfFuel

theorem finishes_of_settles {α β : Type} {n : Nat} {run : Nat → Run α n β} {P : β → Prop}
    (h : Logged.Settles run (· ≠ .outOfFuel) P) : Finishes run := by
  obtain ⟨enough, henough⟩ := h.eventually
  refine ⟨enough, ?_⟩
  intro fuel hfuel hresult
  exact (henough fuel hfuel).error _ hresult rfl

theorem Problem.tolerates_ne_outOfFuel {α : Type} {n : Nat} (p : Problem α n) :
    p.Tolerates (· ≠ .outOfFuel) :=
  ⟨fun _ _ _ => nofun, fun _ _ _ => nofun⟩

/-- The objective is never infinitely low, and it is always defined, or at least the gradient is finite
wherever it is defined. -/
structure Problem.IsTame (p : Problem Extended n) : Prop where
  bottomed : ∀ x, p.objective (ofReals x) ≠ .ok .negInf
  defined : (∀ x, p.objective (ofReals x) ≠ .ok .nan) ∨
    ∀ x v g, p.objective (ofReals x) = .ok v → v ≠ .nan → p.gradient (ofReals x) = .ok g →
      ∃ w, g = ofReals w

namespace LineSearch

structure Parameters.Suffice (parameters : Parameters Extended) : Prop where
  positive : ∃ c₁ c₂ zero, parameters.ArePositive c₁ c₂ zero
  epsilon : ∃ epsilon, parameters.precision.epsilon = .finite epsilon ∧ 0 < epsilon
  tolerance : parameters.displacementTolerance ≠ .nan

theorem Ray.Verdict.value_of_isTame {r : Ray Extended n} {t : ℝ} {v : Extended} (h : r.Verdict t v)
    (hpoint : ∀ t, ∃ y, r.point (.finite t) = ofReals y) (hdirection : ∃ d, r.direction = ofReals d)
    (htame : r.problem.IsTame) : v = .posInf ∨ ∃ f, v = .finite f := by
  have hle : ∀ {u w : Extended}, u ≤ w → u ≠ .nan := by
    intro u w huw hu
    rw [hu] at huw
    exact huw
  have hvalue : ∀ t, ∃ y, r.point (.finite t) = ofReals y ∧ ∀ v, r.HasValue (.finite t) v →
      r.problem.objective (ofReals y) = .ok v := by
    intro t
    obtain ⟨y, hy⟩ := hpoint t
    exact ⟨y, hy, fun v hv => hy ▸ hv⟩
  have hdefined : v ≠ .nan := by
    cases htame.defined with
    | inl hdefined =>
      intro hnan
      obtain ⟨y, _, hy⟩ := hvalue t
      exact hdefined y (hnan ▸ hy v h.hasValue)
    | inr hgradient =>
      cases h with
      | conditions s hv _ _ => exact hle hv.2
      | confined s hv _ _ _ => exact hle hv.2
      | fullStep t' v' _ _ hless _ _ _ => exact hle (Scalar.le_of_lt hless)
      | undefinedSlope hv _ => exact hle hv.2
      | unseen low f _ hf hslope _ =>
        -- The objective is defined at the shorter step, and then so is the slope.
        obtain ⟨y, hpoint, hy⟩ := hvalue low
        obtain ⟨g, hg, hdot⟩ := hslope
        rw [hpoint] at hg
        obtain ⟨w, rfl⟩ := hgradient y f g (hy f hf.1) (hle hf.2) hg
        obtain ⟨d, hd⟩ := hdirection
        rw [hd, dotOver_ofReals] at hdot
        cases hdot
  cases v with
  | finite f => exact Or.inr ⟨f, rfl⟩
  | posInf => exact Or.inl rfl
  | negInf =>
    obtain ⟨y, _, hy⟩ := hvalue t
    exact absurd (hy _ h.hasValue) (htame.bottomed y)
  | nan => exact absurd rfl hdefined

variable {problem : Problem Extended n} {parameters : Parameters Extended} {a : ActiveSet Extended n}
  {x p : Fin n → ℝ} {grad : Vector Extended n} {f : Extended} {m c₁ c₂ zero : ℝ}

theorem eq_zero_of_freeNorm {fixed : Vector Bool n} (h : freeNorm fixed p = 0) {i : Fin n}
    (hi : fixed[i] = false) : p i = 0 := by
  unfold freeNorm at h
  have hnonneg : ∀ i ∈ freeSet fixed, 0 ≤ p i * p i := fun i _ => mul_self_nonneg (p i)
  rw [Real.sqrt_eq_zero (Finset.sum_nonneg hnonneg), Finset.sum_eq_zero_iff_of_nonneg hnonneg] at h
  exact mul_self_eq_zero.mp (h i (mem_freeSet.mpr hi))

theorem relativeChange_zero {fixed : Vector Bool n} (x : Fin n → ℝ)
    (hp : ∀ i : Fin n, fixed[i] = false → p i = 0) :
    relativeChange (ofReals p) (ofReals x) (unmasked fixed) = 0 := by
  unfold relativeChange
  apply maximumOver_induction (P := fun v : Extended => v = 0) rfl
  intro i hi
  have hpos : max |x i| 1 ≠ 0 := (lt_of_lt_of_le one_pos (le_max_right _ _)).ne'
  rw [getElem_ofReals, getElem_ofReals, hp i (mem_unmasked.mp hi), abs_finite, abs_finite, one_eq,
    maximum_finite, finite_div hpos, abs_zero, zero_div, zero_eq]

theorem Ray.IsFrom.maxStep_finite {r : Ray Extended n}
    (hr : r.IsFrom problem parameters a (ofReals x) f grad (ofReals p) (.finite m)) (hm : 0 ≤ m)
    (hp : parameters.ArePositive c₁ c₂ zero) : ∃ k, r.maxStep = some (.finite k) := by
  obtain ⟨_, _, _, _, _, hmax⟩ | ⟨hdirection, ⟨_, hpos, hmax⟩ | ⟨hnorm, _⟩⟩ :=
    scale_cases a.fixed p (isLimit_finite hm)
  . exact ⟨1, hr.maxStep.trans hmax⟩
  . rw [finite_div hpos.ne'] at hmax
    exact ⟨_, hr.maxStep.trans hmax⟩
  . have hmoves := hr.moves
    unfold ActiveSet.free at hmoves
    rw [hr.direction_eq, hdirection, relativeChange_zero x fun i hi => eq_zero_of_freeNorm hnorm hi,
      hp.zero_eq, zero_eq, finite_le] at hmoves
    exact absurd hp.zero_pos.le hmoves

theorem Ray.IsFrom.stops {r : Ray Extended n}
    (hr : r.IsFrom problem parameters a (ofReals x) f grad (ofReals p) (.finite m)) (hm : 0 ≤ m)
    (hp : parameters.ArePositive c₁ c₂ zero)
    (hepsilon : ∃ epsilon, parameters.precision.epsilon = .finite epsilon ∧ 0 < epsilon)
    (htolerance : parameters.displacementTolerance ≠ .nan) : r.Stops := by
  obtain ⟨k, hk⟩ := hr.maxStep_finite hm hp
  refine ⟨?_, hr.minStep_ne_nan hp (isLimit_finite hm) htolerance, k, fun t _ ht _ => ht.2 k hk⟩
  rw [hr.parameters_eq]
  exact hepsilon

variable (problem x p) in
theorem search_settles_of_limit (hparameters : parameters.Suffice) (hm : 0 ≤ m)
    (hgrad : FiniteOn a.fixed grad) (hf : f = .posInf ∨ ∃ f₀, f = .finite f₀) :
    ∃ c₁ c₂ zero, parameters.ArePositive c₁ c₂ zero ∧ Logged.Settles
      (fun fuel => search fuel problem parameters a (ofReals x) f grad (ofReals p) (.finite m))
      (· ≠ .outOfFuel) (·.IsCertified problem parameters c₁ c₂ a (ofReals x) f grad (ofReals p) (.finite m)) := by
  obtain ⟨c₁, c₂, zero, hp⟩ := hparameters.positive
  exact ⟨c₁, c₂, zero, hp, search_settles_of_stops problem.tolerates_ne_outOfFuel (fun _ _ => nofun) hp
    (isLimit_finite hm) hgrad hf
    fun _ _ hr _ => hr.stops hm hp hparameters.epsilon hparameters.tolerance⟩

end LineSearch

namespace Solver

variable {b : Bounds Extended n} {t : Task Extended n} {s : Iterate Extended n} {r : SearchResult Extended n}

structure Task.Suffices (t : Task Extended n) : Prop where
  parameters : (t.settings.searchParameters t.precision).Suffice
  positive : t.precision.Positive
  maxNorm : ∃ m, 0 ≤ m ∧ t.maxNorm = .finite m

structure Iterate.IsUsable (s : Iterate Extended n) : Prop where
  x : ∃ x, s.x = ofReals x
  direction : ∃ p, s.direction = ofReals p
  grad : FiniteOn s.activeSet.fixed s.grad

theorem Iterate.Arrives.isUsable {x : Vector Extended n} {value : Extended} (hs : s.Arrives x value)
    (hx : ∃ y, x = ofReals y) : s.IsUsable := by
  obtain ⟨hdirection, hgrad⟩ := Factor.finite_of_direction hs.direction
  exact ⟨hs.x_eq ▸ hx, hdirection, hgrad⟩

variable (r s t) in
def Iterate.CertifiedBy : Prop :=
  ∃ c₁ c₂ zero, (t.settings.searchParameters t.precision).ArePositive c₁ c₂ zero ∧
    r.IsCertified t.problem (t.settings.searchParameters t.precision) c₁ c₂ s.activeSet s.x s.value s.grad
      s.direction t.maxNorm

theorem Iterate.CertifiedBy.finite (h : s.CertifiedBy t r) (ht : t.Suffices) (hs : s.IsUsable)
    (hb : b.AllFinite) (hkeeps : s.Keeps b) (hrkeeps : r.Keeps b s.activeSet s.x) :
    ∃ x, r.x = ofReals x := by
  obtain ⟨c₁, c₂, zero, hp, hr⟩ := h
  obtain ⟨x, hx⟩ := hs.x
  obtain ⟨p, hdirection⟩ := hs.direction
  obtain ⟨m, hm, hmax⟩ := ht.maxNorm
  rw [hx, hdirection, hmax] at hr
  apply result_finite hb hrkeeps
  exact LineSearch.finiteOn_of_isCertified (LineSearch.allFinite_working hkeeps.holds hb)
    (LineSearch.isLimit_finite hm) hp hr

theorem Iterate.CertifiedBy.value_of_isTame (h : s.CertifiedBy t r) (ht : t.Suffices) (hs : s.IsUsable)
    (hb : b.AllFinite) (hkeeps : s.Keeps b) (htame : t.problem.IsTame)
    (hvalue : s.value = .posInf ∨ ∃ f, s.value = .finite f) :
    r.value = .posInf ∨ ∃ f, r.value = .finite f := by
  obtain ⟨c₁, c₂, zero, hp, hr⟩ := h
  obtain ⟨x, hx⟩ := hs.x
  obtain ⟨p, hdirection⟩ := hs.direction
  obtain ⟨m, hm, hmax⟩ := ht.maxNorm
  rw [hx, hdirection, hmax] at hr
  obtain hhalts | ⟨ray, _, u, hfrom, _, hu⟩ := hr
  . rw [hhalts.value]
    exact hvalue
  . obtain ⟨q, _, _, hq, _⟩ := LineSearch.scale_finite s.activeSet.fixed p (LineSearch.isLimit_finite hm)
    exact hu.verdict.value_of_isTame (hfrom.point_finite (LineSearch.allFinite_working hkeeps.holds hb)
      (LineSearch.isLimit_finite hm) hp) ⟨q, hfrom.direction_eq.trans hq⟩ (hfrom.problem_eq ▸ htame)

theorem search_certifiedBy (ht : t.Suffices) (hs : s.IsUsable)
    (hvalue : s.value = .posInf ∨ ∃ f, s.value = .finite f) :
    (s.search t).Meets (fun _ => True) (fun _ => True) (s.CertifiedBy t ·) := by
  obtain ⟨c₁, c₂, zero, hp⟩ := ht.parameters.positive
  obtain ⟨p, hdirection⟩ := hs.direction
  obtain ⟨m, hm, hmax⟩ := ht.maxNorm
  have hsearch := LineSearch.search_certified (x := s.x) (p := p) t.problem.tolerates_true
    (fun _ _ => trivial) hp (LineSearch.isLimit_finite hm) hs.grad hvalue trivial t.searchFuel
  rw [← hdirection, ← hmax] at hsearch
  exact hsearch.imp fun r hr => ⟨c₁, c₂, zero, hp, hr⟩

theorem search_settles_of_value (ht : t.Suffices) (hs : s.IsUsable)
    (hvalue : s.value = .posInf ∨ ∃ f, s.value = .finite f) :
    Logged.Settles (fun fuel => s.search (t.refuel fuel)) (· ≠ .outOfFuel) (s.CertifiedBy t ·) := by
  obtain ⟨x, hx⟩ := hs.x
  obtain ⟨p, hdirection⟩ := hs.direction
  obtain ⟨m, hm, hmax⟩ := ht.maxNorm
  obtain ⟨c₁, c₂, zero, hp, hsettles⟩ := LineSearch.search_settles_of_limit t.problem x p ht.parameters hm
    hs.grad hvalue
  rw [← hx, ← hdirection, ← hmax] at hsettles
  exact hsettles.imp fun r hr => ⟨c₁, c₂, zero, hp, hr⟩

theorem pass_isUsable (hc : b.crossed = false) (hb : b.AllFinite) (ht : t.Suffices) (hkeeps : s.Keeps b)
    (hs : s.IsUsable) (hvalue : s.value = .posInf ∨ ∃ f, s.value = .finite f) :
    (s.pass t).Meets (fun _ => True) (fun _ => True) (GoesOnFrom (·.IsUsable)) := by
  apply (pass_point t s).imp
  intro next hnext
  cases next with
  | inl s' =>
    obtain ⟨r, hresult, harrives⟩ := hnext
    have hr := (search_certifiedBy ht hs hvalue).value r hresult
    exact harrives.isUsable (hr.finite ht hs hb hkeeps (hkeeps.search hc ht.positive hresult))
  | inr solution => trivial

theorem pass_settles_of_value (hc : b.crossed = false) (hb : b.AllFinite) (ht : t.Suffices)
    (hkeeps : s.Keeps b) (hs : s.IsUsable) (hvalue : s.value = .posInf ∨ ∃ f, s.value = .finite f) :
    Logged.Settles (fun fuel => s.pass (t.refuel fuel)) (· ≠ .outOfFuel) (GoesOnFrom (·.IsUsable)) := by
  have hplain : ∀ e : Error Extended, e.isPlain = true → e ≠ .outOfFuel := by
    intro e he hfuel
    rw [hfuel] at he
    cases he
  have hsearch := (search_settles_of_value ht hs hvalue).withValue
    fun fuel => search_meets (t := t.refuel fuel) hc ht.positive hkeeps
  have hpass : Logged.Settles (fun fuel => s.pass (t.refuel fuel)) (· ≠ .outOfFuel)
      (GoesOnFrom fun _ => True) := by
    apply pass_settles_of_search hsearch
    . intro r hr _
      exact (afterZeroStep_meets hplain (t := t) hr.2).mono (fun _ _ => trivial) (fun _ h => h)
        fun _ _ => trivial
    . intro r hr _
      apply (afterStep_meets hplain (t := t) hb hr.2).mono (fun _ _ => trivial) fun _ h => h
      intro next _
      cases next with
      | inl s' => trivial
      | inr solution => trivial
  apply (hpass.withValue fun fuel => pass_isUsable (t := t.refuel fuel) hc hb
    ⟨ht.parameters, ht.positive, ht.maxNorm⟩ hkeeps hs hvalue).imp
  exact fun _ h => h.2

theorem pass_value_of_isTame (hc : b.crossed = false) (hb : b.AllFinite) (ht : t.Suffices)
    (htame : t.problem.IsTame) (hkeeps : s.Keeps b) (hs : s.IsUsable)
    (hvalue : s.value = .posInf ∨ ∃ f, s.value = .finite f) :
    (s.pass t).Meets (fun _ => True) (fun _ => True)
      (GoesOnFrom fun s' => s'.IsUsable ∧ (s'.value = .posInf ∨ ∃ f, s'.value = .finite f)) := by
  apply ((pass_point t s).withValue (pass_isUsable hc hb ht hkeeps hs hvalue)).imp
  intro next hnext
  cases next with
  | inl s' =>
    obtain ⟨⟨r, hresult, harrives⟩, husable⟩ := hnext
    refine ⟨husable, ?_⟩
    rw [harrives.value_eq]
    exact ((search_certifiedBy ht hs hvalue).value r hresult).value_of_isTame ht hs hb hkeeps htame hvalue
  | inr solution => trivial

theorem visited_value_of_isTame (hc : b.crossed = false) (hb : b.AllFinite) (ht : t.Suffices)
    (htame : t.problem.IsTame) {s₀ : Iterate Extended n} (hkeeps : s₀.Keeps b) (hs : s₀.IsUsable)
    (hvalue : s₀.value = .posInf ∨ ∃ f, s₀.value = .finite f) (h : Visited t s₀ s) :
    s.value = .posInf ∨ ∃ f, s.value = .finite f := by
  have hinvariant := h.invariant (I := fun s => s.Keeps b ∧ s.IsUsable ∧
    (s.value = .posInf ∨ ∃ f, s.value = .finite f)) ⟨hkeeps, hs, hvalue⟩ fun s s' hs _ hpass =>
      ⟨(pass_meets hc hb ht.positive hs.1).value _ hpass,
        (pass_value_of_isTame hc hb ht htame hs.1 hs.2.1 hs.2.2).value _ hpass⟩
  exact hinvariant.2.2

section Solve

variable {problem : Problem Extended n} {settings : Settings Extended} {epsilon zero : ℝ}
  {x₀ : Fin n → ℝ}

theorem isUsable_start (b : Bounds Extended n) (x g : Fin n → ℝ) (value : Extended) :
    (start b (ofReals x) value (ofReals g)).IsUsable :=
  ⟨⟨x, rfl⟩, ⟨_, start_direction b _ value g⟩, finiteOn_ofReals _ g⟩

theorem taskSuffices (problem : Problem Extended n) (hsettings : settings.Valid)
    (htolerance : settings.displacementTolerance ≠ .nan) (hmaxStep : ∃ m, settings.maxStep = .finite m)
    (hepsilon : 0 < epsilon) (hzero : 0 < zero) (searchFuel : Nat) (g : Fin n → ℝ) :
    Task.Suffices {
      problem, settings, searchFuel
      precision := { epsilon := .finite epsilon, zero := .finite zero }
      maxNorm := maxNorm settings n (ofReals g) } where
  parameters := {
    positive := (taskIsExact problem hsettings hepsilon hzero searchFuel g).parameters.arePositive
    epsilon := ⟨epsilon, rfl, hepsilon⟩
    tolerance := htolerance }
  positive := ⟨finite_lt.mpr hepsilon, finite_lt.mpr hzero⟩
  maxNorm := by
    obtain ⟨k, hk⟩ := hmaxStep
    obtain ⟨m, hm, hnorm⟩ := pickMax_norm g
    have hpos := hsettings.2.2.2.2.2
    rw [hk, zero_eq, finite_le, not_le] at hpos
    refine ⟨k * m, mul_nonneg hpos.le hm, ?_⟩
    unfold maxNorm
    rw [hnorm, hk, finite_mul]

variable (hsettings : settings.Valid) (htolerance : settings.displacementTolerance ≠ .nan)
  (hmaxStep : ∃ m, settings.maxStep = .finite m) (hepsilon : 0 < epsilon) (hzero : 0 < zero)
  (hb : b.AllFinite) (hgradient : ∀ g, problem.gradient (ofReals x₀) = .ok g → ∃ w, g = ofReals w)
include hsettings htolerance hmaxStep hepsilon hzero hb hgradient

theorem finishes_of_values (hvalues : ∀ searchFuel s, Searches problem settings
      { epsilon := .finite epsilon, zero := .finite zero } searchFuel b (ofReals x₀) s →
      s.value = .posInf ∨ ∃ f, s.value = .finite f) :
    Finishes fun searchFuel => solve problem settings
      { epsilon := .finite epsilon, zero := .finite zero } searchFuel b (ofReals x₀) := by
  by_cases hstarted : b.checkStart (ofReals x₀) = .ok () ∧ ∃ value grad,
      problem.objective (ofReals x₀) = .ok value ∧ problem.gradient (ofReals x₀) = .ok grad
  . obtain ⟨hcheck, value, grad, hobjective, hgrad⟩ := hstarted
    obtain ⟨g, rfl⟩ := hgradient grad hgrad
    have ht := taskSuffices problem hsettings htolerance hmaxStep hepsilon hzero 0 g
    -- With enough fuel the run searches from the iterate, which is what `hvalues` asks for.
    obtain ⟨enough, henough⟩ := solve_ends_of_pass (E := (· ≠ .outOfFuel))
      (I := fun s => s.IsUsable ∧ (s.iterations < settings.budget → ∃ enough, ∀ searchFuel,
        enough ≤ searchFuel → Visited {
          problem, settings, searchFuel
          precision := { epsilon := .finite epsilon, zero := .finite zero }
          maxNorm := maxNorm settings n (ofReals g) } (start b (ofReals x₀) value (ofReals g)) s))
      hb hcheck ⟨finite_lt.mpr hepsilon, finite_lt.mpr hzero⟩ hobjective hgrad
      (by
        intro s hkeeps hs hlt
        obtain ⟨enough, hvisited⟩ := hs.2 hlt
        have hvalue := hvalues enough s ⟨_, _, ⟨value, ofReals g, hobjective, hgrad, rfl, rfl⟩,
          hvisited enough (le_refl _)⟩
        apply (pass_settles_of_value (Bounds.checkStart_eq_ok_iff.mp hcheck).1 hb ht hkeeps hs.1
          hvalue).self.imp
        intro next hnext
        cases next with
        | inl s' =>
          obtain ⟨husable, enough', hpass⟩ := hnext
          refine ⟨husable, fun hlt' => ⟨max enough enough', ?_⟩⟩
          intro searchFuel hfuel
          exact (hvisited searchFuel (by omega)).pass (hpass searchFuel (by omega)) hlt'
        | inr solution => trivial)
      ⟨isUsable_start b x₀ g value, fun hlt => ⟨0, fun _ _ => .start hlt⟩⟩
    exact ⟨enough, fun searchFuel hfuel he => henough searchFuel hfuel _ he rfl⟩
  . exact ⟨0, fun _ _ he => hstarted (started_of_outOfFuel he)⟩

theorem values_of_isTame (hcheck : b.checkStart (ofReals x₀) = .ok ()) (htame : problem.IsTame)
    (hvalue : ∀ f, problem.objective (ofReals x₀) = .ok f → f = .posInf ∨ ∃ r, f = .finite r)
    {searchFuel : Nat} (h : Searches problem settings
      { epsilon := .finite epsilon, zero := .finite zero } searchFuel b (ofReals x₀) s) :
    s.value = .posInf ∨ ∃ f, s.value = .finite f := by
  obtain ⟨hc, hreached⟩ := Bounds.checkStart_eq_ok_iff.mp hcheck
  obtain ⟨_, _, ⟨value, grad, hobjective, hgrad, rfl, rfl⟩, hvisited⟩ := h
  obtain ⟨g, rfl⟩ := hgradient grad hgrad
  exact visited_value_of_isTame hc hb
    (taskSuffices problem hsettings htolerance hmaxStep hepsilon hzero searchFuel g) htame
    (keeps_start (Bounds.contains_of_not_reached hreached)
      (Bounds.separates_of_not_reached hb hreached) _ _) (isUsable_start b x₀ g value)
    (hvalue value hobjective) hvisited

end Solve

end Solver

end BoxDescent

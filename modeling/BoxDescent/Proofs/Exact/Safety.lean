import BoxDescent.Proofs.LineSearch.Search
import BoxDescent.Proofs.Exact.Cliff
import BoxDescent.Proofs.Exact.Division

/-!
This module contains what keeps a line search in exact arithmetic safe: every trial step is positive and
feasible, nothing is divided by zero on the way to the next one, and trials and brackets shrink by a fixed share
(`search_safe`).
-/

namespace BoxDescent

def Error.isInfeasibleStep {α : Type} : Error α → Bool
  | .breakdown (.infeasibleStep ..) => true
  | _ => false

namespace LineSearch

open Extended

variable {n : Nat} {r : Ray Extended n}

def Stage.IsSafe (r : Ray Extended n) : Stage Extended → Prop
  | .trial t => ∀ f, r.Fails t.step (.finite f) → ∀ d ∈ t.divisors r (.finite f), d ≠ 0
  | .extrapolation _ => True
  | .bracket b increment => b.divisor ≠ 0 ∧ ∃ low width s, b.low = .finite low ∧ b.width = .finite width ∧
    increment = .finite s ∧ 0 < width ∧ width / 5 ≤ s ∧ s ≤ 4 * width / 5

def Stage.Shrinks (v : Extended) : Stage Extended → Stage Extended → Prop
  | .trial t, .trial t' => ∃ step step', t.step = .finite step ∧ t'.step = .finite step' ∧
    (v = .posInf ∧ step' = step / 2 ∨ v ≠ .posInf ∧ step / 10 ≤ step' ∧ step' ≤ step / 2)
  | .bracket b _, .bracket b' _ => ∃ width width', b.width = .finite width ∧ b'.width = .finite width' ∧
    0 < width' ∧ width' ≤ 4 * width / 5
  | _, _ => True

theorem Bracket.Continues.eq_bracket {b : Bracket Extended} {s : Stage Extended}
    (h : b.Continues r (.inl s)) : ∃ increment, s = .bracket b increment := by
  cases h with
  | inside _ _ => exact ⟨_, rfl⟩

section Certified

variable {rate c₁ c₂ f₀ : ℝ} (hr : r.Descends rate c₁ c₂) (hvalue : r.value = .finite f₀)
  (horder : c₁ < c₂) {s s' : Stage Extended} (hs : s.Certified r) (hregular : s.IsRegular)
include hr hvalue horder hs hregular

theorem Stage.Certified.isSafe (hc₁ : c₁ < 1) : s.IsSafe r := by
  cases s with
  | trial t =>
    obtain ⟨step, ht⟩ := hs
    intro f hf
    rw [ht.step_eq] at hf
    exact ht.divisors_ne_zero hr hvalue hc₁ hf
  | extrapolation e => trivial
  | bracket b increment =>
    obtain ⟨low, width, s, hb, hs, hshort, hlong⟩ := hs.inside hr hvalue horder hregular
    exact ⟨hb.divisor_ne_zero hr hvalue horder hregular, low, width, s, hb.low_eq, hb.width_eq, hs, hb.wide,
      hshort, hlong⟩

theorem Stage.Certified.shrinks {v : Extended} (hfinite : v = .posInf ∨ ∃ f, v = .finite f)
    (hv : r.HasValue s.step v) (h : s.Advances r v (.inl s')) : s.Shrinks v s' := by
  cases h with
  | halved hnot _ =>
    obtain ⟨step, ht⟩ := hs
    have hinf : v = .posInf := by
      obtain hinf | ⟨f, rfl⟩ := hfinite
      . exact hinf
      . cases hnot
    refine ⟨step, step / 2, ht.step_eq, ?_, Or.inl ⟨hinf, rfl⟩⟩
    dsimp only
    rw [ht.step_eq, ofScientific_eq, finite_mul]
    congr 1
    ring
  | shortened hnumber hgt _ =>
    obtain ⟨step, ht⟩ := hs
    obtain ⟨f, rfl⟩ := isFinite_iff.mp hnumber
    have hfails : r.Fails (.finite step) (.finite f) := ht.step_eq ▸ ⟨hv, hgt⟩
    obtain ⟨step', hstep', hge, hle⟩ := ht.shorter_step hr hfails
    exact ⟨step, step', ht.step_eq, hstep', Or.inr ⟨nofun, hge, hle⟩⟩
  | trialBracketed _ _ _ _ hnext =>
    obtain ⟨_, rfl⟩ := hnext.eq_bracket
    trivial
  | trialExtended _ _ _ _ hnext =>
    cases hnext with
    | double _ => trivial
    | atLimit _ hnext =>
      obtain ⟨_, rfl⟩ := hnext.eq_bracket
      trivial
  | extended _ _ _ hnext =>
    cases hnext with
    | double _ => trivial
    | atLimit _ hnext =>
      obtain ⟨_, rfl⟩ := hnext.eq_bracket
      trivial
  | extrapolationBracketed _ hnext =>
    obtain ⟨_, rfl⟩ := hnext.eq_bracket
    trivial
  | raised _ _ _ hnext =>
    obtain ⟨_, rfl⟩ := hnext.eq_bracket
    obtain ⟨low, width, s, hb, rfl, hshort, hlong⟩ := hs.inside hr hvalue horder hregular
    have hwide := hb.wide
    refine ⟨width, width - s, hb.width_eq, ?_, by linarith, by linarith⟩
    dsimp only
    rw [hb.width_eq, finite_sub]
  | lowered _ hnext =>
    obtain ⟨_, rfl⟩ := hnext.eq_bracket
    obtain ⟨low, width, s, hb, rfl, hshort, hlong⟩ := hs.inside hr hvalue horder hregular
    have hwide := hb.wide
    exact ⟨width, s, hb.width_eq, rfl, by linarith, hlong⟩

end Certified

section Search

variable {problem : Problem Extended n} {parameters : Parameters Extended} {a : ActiveSet Extended n}
  {c₁ c₂ zero : ℝ} {maxNorm : Extended}

/-- Whatever quotients by zero are, a search in exact arithmetic is the same. It looks at the objective at
steps that are positive and feasible, so that it never breaks down for an infeasible one. None of its divisors
is zero, and trials and brackets shrink. -/
theorem search_safe
    (hp : parameters.ArePositive c₁ c₂ zero) (hepsilon : 0 < parameters.precision.epsilon)
    (horder : c₁ < c₂) (hc₂ : c₂ < 1) (hm : IsLimit maxNorm) {x g p : Fin n → ℝ} {f₀ : ℝ}
    (hregular : ∀ r s, (aim problem parameters a (ofReals x) (.finite f₀) (ofReals g) (ofReals p)
      maxNorm).result = .ok (.inl r) → r.Reaches s → problem.IsRegularAt (r.point s.step)) :
    (∀ div : Extended → Extended → Extended, (∀ d, d ≠ 0 → Divides div d) → ∀ fuel,
      @search Extended (Scalar.withDivision inferInstance div) n fuel problem parameters a (ofReals x)
        (.finite f₀) (ofReals g) (ofReals p) maxNorm =
      search fuel problem parameters a (ofReals x) (.finite f₀) (ofReals g) (ofReals p) maxNorm) ∧
    (∀ fuel, (search fuel problem parameters a (ofReals x) (.finite f₀) (ofReals g) (ofReals p) maxNorm).Meets
      (fun e => ∀ y v, e = .objective y v → ∃ r s, (aim problem parameters a (ofReals x) (.finite f₀)
        (ofReals g) (ofReals p) maxNorm).result = .ok (.inl r) ∧ r.Reaches s ∧ y = r.point s.step)
      (·.isInfeasibleStep = false) fun _ => True) ∧
    ∀ r, (aim problem parameters a (ofReals x) (.finite f₀) (ofReals g) (ofReals p) maxNorm).result =
        .ok (.inl r) → ∀ s, r.Reaches s →
      (∃ t, s.step = .finite t ∧ 0 < t ∧ ∀ alpha, r.reach = some alpha → .finite t ≤ alpha) ∧
      s.IsSafe r ∧
      ∀ v s', r.HasValue s.step v → (s.advance r v).result = .ok (.inl s') → s.Shrinks v s' := by
  refine ⟨fun div hdiv fuel => search_congr hdiv hp hepsilon horder hc₂ hm hregular fuel, ?_, ?_⟩
  . intro fuel
    have hreaches := search_reaches fuel problem parameters a (ofReals x) (.finite f₀) (ofReals g) (ofReals p)
      maxNorm
    have hcertified : (search fuel problem parameters a (ofReals x) (.finite f₀) (ofReals g) (ofReals p)
        maxNorm).Meets (fun _ => True) (·.isInfeasibleStep = false)
        (·.IsCertified problem parameters c₁ c₂ a (ofReals x) (.finite f₀) (ofReals g) (ofReals p) maxNorm) :=
      search_certified (E := (·.isInfeasibleStep = false)) ⟨fun _ _ _ => rfl, fun _ _ _ => rfl⟩
        (fun _ _ => rfl) hp hm
        (finiteOn_ofReals a.fixed g) (Or.inr ⟨f₀, rfl⟩) rfl fuel
    refine ⟨?_, hcertified.error, fun _ _ => trivial⟩
    intro e he y v heq
    obtain ⟨r, haimed, hobserves⟩ := hreaches.log e he y v heq
    obtain ⟨s, hs, hy⟩ := hobserves y v heq
    exact ⟨r, s, haimed, hs, hy⟩
  . intro r haimed s hs
    have hfrom := isFrom_of_aim haimed
    obtain ⟨rate, hr⟩ := hfrom.exists_descends hp hm (finiteOn_ofReals a.fixed g) (Or.inr ⟨f₀, rfl⟩)
    have hsteps := fun s hs => hfrom.isRegularAt hm (hregular r s haimed hs)
    have hcertified := hs.certified hr
    have hends := hs.isRegular hr hfrom.value horder hsteps
    obtain ⟨t, ht, hpos, hrange⟩ := hcertified.exists_step hr hfrom.value horder hends
    refine ⟨⟨t, ht, hpos, hrange.1⟩, hcertified.isSafe hr hfrom.value horder hends (horder.trans hc₂), ?_⟩
    intro v s' hv hnext
    exact hcertified.shrinks hr hfrom.value horder hends ((hsteps s hs).value v hv) hv
      (Stage.advances_of_result hnext)

end Search

theorem search_safe_cliff :
    (aim (Cliff.problem (.finite (-5)) (.finite 1)) Cliff.parameters (.ofBounds .unbounded)
      (ofReals fun _ => 0) (.finite 0) (ofReals fun _ => 1) (ofReals fun _ => -1) (.finite 2)).result =
        .ok (.inl (Cliff.ray (.finite (-5)) (.finite 1))) ∧
    (∀ div : Extended → Extended → Extended, (∀ d, d ≠ 0 → Divides div d) → ∀ fuel,
      @search Extended (Scalar.withDivision inferInstance div) 1 fuel
        (Cliff.problem (.finite (-5)) (.finite 1)) Cliff.parameters (.ofBounds .unbounded)
        (ofReals fun _ => 0) (.finite 0) (ofReals fun _ => 1) (ofReals fun _ => -1) (.finite 2) =
      search fuel (Cliff.problem (.finite (-5)) (.finite 1)) Cliff.parameters (.ofBounds .unbounded)
        (ofReals fun _ => 0) (.finite 0) (ofReals fun _ => 1) (ofReals fun _ => -1) (.finite 2)) ∧
    ∀ s, (Cliff.ray (.finite (-5)) (.finite 1)).Reaches s →
      s.IsSafe (Cliff.ray (.finite (-5)) (.finite 1)) ∧ ∃ t, s.step = .finite t ∧ 0 < t := by
  have hepsilon : (0 : Extended) < Cliff.parameters.precision.epsilon := Line.precision_positive.epsilon
  have haim : (aim (Cliff.problem (.finite (-5)) (.finite 1)) Cliff.parameters (.ofBounds .unbounded)
      (ofReals fun _ => 0) (.finite 0) (ofReals fun _ => 1) (ofReals fun _ => -1) (.finite 2)).result =
        .ok (.inl (Cliff.ray (.finite (-5)) (.finite 1))) := Cliff.aim_eq
  have hpoint : ∀ t, (Cliff.problem (.finite (-5)) (.finite 1)).IsRegularAt
      ((Cliff.ray (.finite (-5)) (.finite 1)).point (.finite t)) := by
    intro t
    unfold Cliff.ray
    rw [Line.point_ray]
    exact ⟨Cliff.objective_regular _, Cliff.gradient_regular _⟩
  have hfrom := isFrom_of_aim haim
  obtain ⟨rate, hr⟩ := hfrom.exists_descends Cliff.parameters_arePositive (isLimit_finite two_pos.le)
    (finiteOn_ofReals _ _) (Or.inr ⟨0, rfl⟩)
  have hregular : (Cliff.ray (.finite (-5)) (.finite 1)).IsRegular :=
    Ray.isRegular (fun t => ⟨_, Line.point_ray t⟩) ⟨_, rfl⟩ Cliff.objective_regular Cliff.gradient_regular
  obtain ⟨hdivision, _, hstages⟩ := search_safe Cliff.parameters_arePositive hepsilon (by norm_num)
    (by norm_num) (isLimit_finite two_pos.le) (by
      intro r s haim' hs
      cases haim.symm.trans haim'
      obtain ⟨t, ht⟩ := hregular.exists_step hr rfl (by norm_num) hs
      rw [ht]
      exact hpoint t)
  refine ⟨haim, hdivision, ?_⟩
  intro s hs
  obtain ⟨⟨t, ht, hpos, _⟩, hsafe, _⟩ := hstages _ haim s hs
  exact ⟨hsafe, t, ht, hpos⟩

end LineSearch

end BoxDescent

import BoxDescent.Proofs.LineSearch.Stage
import BoxDescent.Proofs.Exact.Interpolation

/-!
This module contains what a line search in exact arithmetic knows of the steps that it has looked at
(`Stage.Certified`) and why a step that it takes is the last one (`Ray.Verdict`). The objective and its
gradient may answer anything; that is what the last two verdicts are for.
-/

namespace BoxDescent.LineSearch

open Extended

variable {n : Nat}

def Ray.InRange (r : Ray Extended n) (t : ℝ) : Prop :=
  (∀ v, r.reach = some v → Extended.finite t ≤ v) ∧ ∀ m, r.maxStep = some (.finite m) → t ≤ m

structure Ray.Descends (r : Ray Extended n) (rate c₁ c₂ : ℝ) : Prop where
  value : r.value = .posInf ∨ ∃ f, r.value = .finite f
  slope : r.slope = .finite rate
  sufficientDecrease : r.parameters.sufficientDecrease = .finite c₁
  curvature : r.parameters.curvature = .finite c₂
  descends : rate < 0
  positive : 0 < c₁
  reach : ∀ v, r.reach = some v → ∃ m, v = .finite m ∧ 0 < m
  maxStep : ∀ v, r.maxStep = some v → v ≠ .negInf ∧ ∀ m, v = .finite m → 1 ≤ m
  minStep : ¬r.minStep ≤ 0

inductive Ray.Confined (r : Ray Extended n) (t : ℝ) (v s : Extended) : Prop where
  | limit : (∀ t', r.InRange t' → t' ≤ t) → Confined r t v s
  | narrow (t' : ℝ) (v' : Extended) : t < t' → r.InRange t' → r.Fails (.finite t') v' →
      ¬r.minStep ≤ .finite (t' - t) → Confined r t v s
  | undefined (t' : ℝ) (v' : Extended) : t < t' → r.InRange t' → r.Fails (.finite t') v' →
      bracketIncrement s (.finite (t' - t)) v v' = .nan → Confined r t v s

/-- Why the step `t` is taken, where the objective is `v`. -/
inductive Ray.Verdict (r : Ray Extended n) (t : ℝ) (v : Extended) : Prop where
  | conditions (s : Extended) : r.Decreases (.finite t) v → r.HasSlope (.finite t) s →
      r.curvatureSlope ≤ s → Verdict r t v
  | confined (s : Extended) : r.Decreases (.finite t) v → r.HasSlope (.finite t) s →
      s < r.curvatureSlope → r.Confined t v s → Verdict r t v
  | fullStep (t' : ℝ) (v' : Extended) : (firstTrial r).step = .finite t → r.Fails (.finite t) v →
      v < r.value → 0 < t' → Extended.finite t' < r.minStep → r.Fails (.finite t') v' → Verdict r t v
  | undefinedSlope : r.Decreases (.finite t) v → r.HasSlope (.finite t) .nan → Verdict r t v
  | unseen (low : ℝ) (f : Extended) : low < t → r.Decreases (.finite low) f →
      r.HasSlope (.finite low) .nan → r.Fails (.finite t) v → Verdict r t v

theorem Ray.Verdict.hasValue {r : Ray Extended n} {t : ℝ} {v : Extended} (h : r.Verdict t v) :
    r.HasValue (.finite t) v := by
  cases h with
  | conditions s hv _ _ => exact hv.1
  | confined s hv _ _ _ => exact hv.1
  | fullStep t' v' _ hv _ _ _ _ => exact hv.1
  | undefinedSlope hv _ => exact hv.1
  | unseen low f _ _ _ hv => exact hv.1

structure Trial.Certified (r : Ray Extended n) (t : Trial Extended) (step : ℝ) : Prop where
  step_eq : t.step = .finite step
  pos : 0 < step
  inRange : r.InRange step
  pending : t.first = .pending → t.count = 0 ∧ t.step = (firstTrial r).step
  known : ∀ v, t.first = .known v → r.Fails (firstTrial r).step v
  previous : t.count ≠ 0 → ∃ previous f, t.previous = .finite previous ∧ t.previousValue = .finite f ∧
    step < previous ∧ r.InRange previous ∧ r.Fails (.finite previous) (.finite f)

structure Extrapolation.Certified (r : Ray Extended n) (e : Extrapolation Extended) (low step : ℝ) :
    Prop where
  low_eq : e.low = .finite low
  step_eq : e.step = .finite step
  pos : 0 < low
  lt : low < step
  inRange : r.InRange step
  decreases : r.Decreases (.finite low) e.lowValue
  slope : r.HasSlope (.finite low) e.lowSlope
  steep : e.lowSlope < r.curvatureSlope ∨ e.lowSlope = .nan
  capped : e.step = capped (2.0 * e.low) r.extrapolationLimit

structure Bracket.Certified (r : Ray Extended n) (b : Bracket Extended) (low width : ℝ) : Prop where
  low_eq : b.low = .finite low
  width_eq : b.width = .finite width
  pos : 0 < low
  wide : 0 < width
  inRange : r.InRange (low + width)
  decreases : r.Decreases (.finite low) b.lowValue
  slope : r.HasSlope (.finite low) b.slope
  steep : b.slope < r.curvatureSlope
  fails : r.Fails (.finite (low + width)) b.highValue

def Stage.Certified (r : Ray Extended n) : Stage Extended → Prop
  | .trial t => ∃ step, t.Certified r step
  | .extrapolation e => ∃ low step, e.Certified r low step
  | .bracket b increment => (∃ low width, b.Certified r low width) ∧
    increment = bracketIncrement b.slope b.width b.lowValue b.highValue

def Ending.Certified (r : Ray Extended n) : Ending Extended → Prop
  | .accepted step value => ∃ t, step = .finite t ∧ 0 < t ∧ r.InRange t ∧ r.Verdict t value
  | .noProgress => True

def Stage.Follows (r : Ray Extended n) : Stage Extended → Stage Extended → Prop
  | .trial t, .trial t' => ∃ step step', t.step = .finite step ∧ t'.step = .finite step' ∧
    step' ≤ step / 2 ∧
      (¬Extended.finite step < r.minStep ∨ ¬Extended.finite step' ≤ r.parameters.precision.epsilon)
  | .trial _, _ => True
  | .extrapolation _, .trial _ => False
  | .extrapolation e, .extrapolation e' => e'.low = e.step ∧ below e.step r.extrapolationLimit = true
  | .extrapolation _, .bracket _ _ => True
  | .bracket b _, .bracket b' _ => ∃ width width', b.width = .finite width ∧
    b'.width = .finite width' ∧ width' ≤ 4 * width / 5 ∧ r.minStep ≤ .finite width'
  | .bracket _ _, _ => False

theorem Ray.InRange.mono {r : Ray Extended n} {s t : ℝ} (h : r.InRange t) (hst : s ≤ t) :
    r.InRange s := by
  constructor
  . intro v hv
    exact Scalar.Lawful.le_trans (finite_le.mpr hst) (h.1 v hv)
  . intro m hm
    exact hst.trans (h.2 m hm)

theorem Ray.checkFeasible_inRange {r : Ray Extended n} {E : Error Extended → Prop} {step : Extended}
    (h : step = .nan ∨ ∃ t, step = .finite t ∧ r.InRange t) (f : Extended) :
    (r.checkFeasible step f).Meets (fun _ => True) E fun _ => True := by
  unfold Ray.checkFeasible
  split
  . exact Logged.meets_pure trivial
  . next v hv =>
    rw [if_neg]
    . exact Logged.meets_pure trivial
    . intro hlt
      cases h with
      | inl hnan =>
        subst hnan
        exact absurd (Scalar.Lawful.le_self_right (Scalar.le_of_lt hlt)) id
      | inr hrange =>
        obtain ⟨t, rfl, ht⟩ := hrange
        exact Scalar.not_le_of_lt hlt (ht.1 v hv)

theorem Ray.threshold_nan {r : Ray Extended n} : r.threshold .nan = .nan := by
  unfold Ray.threshold
  rw [mul_nan, nan_mul, add_nan]

namespace Ray.Descends

variable {r : Ray Extended n} {rate c₁ c₂ : ℝ} (hr : r.Descends rate c₁ c₂)
include hr

theorem curvatureSlope_eq : r.curvatureSlope = .finite (c₂ * rate) := by
  unfold Ray.curvatureSlope
  rw [hr.curvature, hr.slope]
  rfl

theorem threshold_eq (t : ℝ) : r.threshold (.finite t) = r.value + .finite (c₁ * t * rate) := by
  unfold Ray.threshold
  rw [hr.sufficientDecrease, hr.slope]
  rfl

theorem steep_of_not_ge {s : Extended} (h : ¬s ≥ r.curvatureSlope) :
    s < r.curvatureSlope ∨ s = .nan := by
  rw [hr.curvatureSlope_eq] at h ⊢
  by_cases hnan : s = .nan
  . exact Or.inr hnan
  . exact Or.inl (Scalar.lt_of_not_le (finite_le.mpr le_rfl) (le_self_iff.mpr hnan) h)

theorem flat_of_not_lt {s : Extended} (h : ¬s < r.curvatureSlope) :
    r.curvatureSlope ≤ s ∨ s = .nan := by
  by_cases hle : r.curvatureSlope ≤ s
  . exact Or.inl hle
  . cases hr.steep_of_not_ge hle with
    | inl hlt => exact absurd hlt h
    | inr hnan => exact Or.inr hnan

theorem limit_cases : r.extrapolationLimit = none ∧ (∀ t, r.InRange t) ∨
    ∃ m, r.extrapolationLimit = some (.finite m) ∧ ∀ t, r.InRange t ↔ t ≤ m := by
  unfold Ray.extrapolationLimit Ray.InRange
  cases hreach : r.reach with
  | none =>
    cases hmax : r.maxStep with
    | none => exact Or.inl ⟨rfl, fun t => ⟨nofun, nofun⟩⟩
    | some v =>
      cases v with
      | finite m =>
        refine Or.inr ⟨m, rfl, fun t => ⟨fun h => h.2 m rfl, fun h => ⟨nofun, ?_⟩⟩⟩
        intro k hk
        cases hk
        exact h
      | posInf => exact Or.inl ⟨rfl, fun t => ⟨nofun, nofun⟩⟩
      | negInf => exact Or.inl ⟨rfl, fun t => ⟨nofun, nofun⟩⟩
      | nan => exact Or.inl ⟨rfl, fun t => ⟨nofun, nofun⟩⟩
  | some v =>
    obtain ⟨m, rfl, _⟩ := hr.reach v hreach
    have hself : ∀ t, (∀ v, some (Extended.finite m) = some v → Extended.finite t ≤ v) ↔ t ≤ m := by
      intro t
      simp only [Option.some.injEq, forall_eq', finite_le]
    simp only [hself]
    cases hmax : r.maxStep with
    | none => exact Or.inr ⟨m, rfl, fun t => ⟨fun h => h.1, fun h => ⟨h, nofun⟩⟩⟩
    | some w =>
      cases w with
      | finite k =>
        refine Or.inr ⟨min m k, congrArg some pickMin_finite, fun t => ?_⟩
        simp only [Option.some.injEq, finite_inj, forall_eq', le_min_iff]
      | posInf =>
        refine Or.inr ⟨m, ?_, fun t => ⟨fun h => h.1, fun h => ⟨h, nofun⟩⟩⟩
        exact congrArg some (if_neg fun h => h.2 trivial)
      | negInf => exact absurd rfl (hr.maxStep _ hmax).1
      | nan =>
        refine Or.inr ⟨m, ?_, fun t => ⟨fun h => h.1, fun h => ⟨h, nofun⟩⟩⟩
        exact congrArg some (if_neg fun h => h.1)

theorem firstTrial_inRange :
    ∃ step, (firstTrial r).step = .finite step ∧ 0 < step ∧ r.InRange step := by
  have hmax : ∀ m, r.maxStep = some (.finite m) → 1 ≤ m := fun m hm => (hr.maxStep _ hm).2 m rfl
  unfold firstTrial Ray.InRange
  cases hreach : r.reach with
  | none => exact ⟨1, rfl, one_pos, nofun, hmax⟩
  | some v =>
    obtain ⟨m, rfl, hm⟩ := hr.reach v hreach
    refine ⟨min m 1, pickMin_finite, lt_min hm one_pos, ?_, ?_⟩
    . intro v hv
      cases hv
      exact finite_le.mpr (min_le_left m 1)
    . intro k hk
      exact (min_le_right m 1).trans (hmax k hk)

theorem firstTrial_certified : (Stage.trial (firstTrial r)).Certified r := by
  obtain ⟨step, hstep, hpos, hrange⟩ := hr.firstTrial_inRange
  exact ⟨step, hstep, hpos, hrange, fun _ => ⟨rfl, rfl⟩, nofun, fun h => absurd rfl h⟩

end Ray.Descends

end BoxDescent.LineSearch

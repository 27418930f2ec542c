import BoxDescent.Proofs.Settles
import BoxDescent.Proofs.Exact.Advance

/-!
This module contains why line searches end in exact arithmetic. Every stage that follows another one
(`Stage.Follows`) halves its trial, doubles its step or takes a fifth off its bracket, and neither can go on
forever (`Trial.settles_of_certified`). So enough fuel is all that a search needs.
-/

namespace BoxDescent

open Extended

namespace LineSearch

variable {n : Nat} {r : Ray Extended n} {E : Error Extended → Prop} {rate c₁ c₂ : ℝ}

/-- What keeps a search along the ray from going on forever. -/
structure Ray.Stops (r : Ray Extended n) : Prop where
  epsilon : ∃ epsilon, r.parameters.precision.epsilon = .finite epsilon ∧ 0 < epsilon
  minStep : r.minStep ≠ .nan
  bounded : ∃ m, ∀ t v, r.InRange t → r.Decreases (.finite t) v → t ≤ m

theorem Ray.Descends.exists_minStep (hr : r.Descends rate c₁ c₂) (hnan : r.minStep ≠ .nan) :
    ∃ m, 0 < m ∧ (∀ t, r.minStep ≤ .finite t → m ≤ t) ∧ ∀ t, ¬Extended.finite t < r.minStep → m ≤ t := by
  have hpos := hr.minStep
  cases hmin : r.minStep with
  | finite m =>
    rw [hmin, zero_eq, finite_le, not_le] at hpos
    refine ⟨m, hpos, ?_, ?_⟩
    . intro t ht
      exact finite_le.mp ht
    . intro t ht
      rw [finite_lt, not_lt] at ht
      exact ht
  | posInf =>
    refine ⟨1, one_pos, ?_, ?_⟩
    . intro t ht
      exact ht.elim
    . intro t ht
      exact absurd ⟨trivial, fun h => h.elim⟩ ht
  | negInf =>
    rw [hmin] at hpos
    exact absurd trivial hpos
  | nan => exact absurd hmin hnan

section Stages

variable (hr : r.Descends rate c₁ c₂) (hE : r.problem.Tolerates E)
include hr hE

theorem Stage.settles_of_follows {s : Stage Extended} (hs : s.Certified r)
    (h : ∀ s' : Stage Extended, s'.Certified r → s.Follows r s' →
      Logged.Settles (fun fuel => runStages r fuel s') E (Ending.Certified r)) :
    Logged.Settles (fun fuel => runStages r fuel s) E (Ending.Certified r) := by
  apply Logged.Settles.succ (fun _ => rfl)
  apply Logged.Settles.bind (Ray.valueAt_hasValue hE s.step).settles
  intro v hv
  apply Logged.Settles.bind (Stage.advance_certified hr hE hs hv).settles
  intro next hnext
  cases next with
  | inl s' => exact h s' hnext.1 hnext.2
  | inr ending => exact (Logged.meets_pure (Q := Ending.Certified r) hnext).settles

theorem Bracket.settles_of_narrower {b : Bracket Extended} {increment : Extended} {width : ℝ}
    (hs : (Stage.bracket b increment).Certified r) (hwidth : b.width = .finite width)
    (h : ∀ (b' : Bracket Extended) (increment' : Extended) (width' : ℝ),
      (Stage.bracket b' increment').Certified r → b'.width = .finite width' → width' ≤ 4 * width / 5 →
      r.minStep ≤ .finite width' →
      Logged.Settles (fun fuel => runStages r fuel (.bracket b' increment')) E (Ending.Certified r)) :
    Logged.Settles (fun fuel => runStages r fuel (.bracket b increment)) E (Ending.Certified r) := by
  apply Stage.settles_of_follows hr hE hs
  intro s' hs' hfollows
  cases s' with
  | trial t => exact hfollows.elim
  | extrapolation e => exact hfollows.elim
  | bracket b' increment' =>
    obtain ⟨_, width', hwidth₀, hwidth', hle, hwide⟩ := hfollows
    rw [hwidth, finite_inj] at hwidth₀
    subst hwidth₀
    exact h b' increment' width' hs' hwidth' hle hwide

theorem Bracket.settles {m : ℝ} (hm : 0 < m) (hmin : ∀ t, r.minStep ≤ .finite t → m ≤ t) (k : Nat) :
    ∀ (b : Bracket Extended) (increment : Extended) (width : ℝ), (Stage.bracket b increment).Certified r →
      b.width = .finite width → width < m * (5 / 4) ^ k →
      Logged.Settles (fun fuel => runStages r fuel (.bracket b increment)) E (Ending.Certified r) := by
  -- A bracket loses a fifth of its width each time, so `k` more make it too narrow.
  induction k with
  | zero =>
    intro b increment width hs hwidth hlt
    apply Bracket.settles_of_narrower hr hE hs hwidth
    intro b' increment' width' _ _ hle hwide
    have := hmin width' hwide
    rw [pow_zero, mul_one] at hlt
    linarith
  | succ k ih =>
    intro b increment width hs hwidth hlt
    apply Bracket.settles_of_narrower hr hE hs hwidth
    intro b' increment' width' hs' hwidth' hle _
    apply ih b' increment' width' hs' hwidth'
    rw [pow_succ] at hlt
    linarith

theorem Bracket.settles_of_certified (hnan : r.minStep ≠ .nan) {b : Bracket Extended}
    {increment : Extended} (hs : (Stage.bracket b increment).Certified r) :
    Logged.Settles (fun fuel => runStages r fuel (.bracket b increment)) E (Ending.Certified r) := by
  obtain ⟨m, hm, hmin, _⟩ := hr.exists_minStep hnan
  obtain ⟨⟨_, width, hb⟩, _⟩ := id hs
  obtain ⟨k, hk⟩ := pow_unbounded_of_one_lt (width / m) (y := 5 / 4) (by norm_num)
  apply Bracket.settles hr hE hm hmin k b increment width hs hb.width_eq
  rw [div_lt_iff₀ hm] at hk
  linarith

omit hE in
theorem Extrapolation.Certified.step_eq_double {e : Extrapolation Extended} {low step : ℝ}
    (he : e.Certified r low step) (hbelow : below e.step r.extrapolationLimit = true) :
    e.step = .finite (2 * low) := by
  have hdouble : (2.0 : Extended) * .finite low = .finite (2 * low) := ofScientific_mul (by norm_num)
  have hstep := he.capped
  rw [he.low_eq, hdouble] at hstep
  cases hr.limit_cases with
  | inl hnone =>
    rw [hnone.1] at hstep
    exact hstep
  | inr hsome =>
    obtain ⟨limit, hlimit, _⟩ := hsome
    have hcapped : e.step = .finite (min (2 * low) limit) := by
      rw [hstep, hlimit]
      exact pickMin_finite
    rw [hcapped, hlimit] at hbelow
    simp only [below, decide_eq_true_eq, finite_lt, min_lt_iff, lt_irrefl, or_false] at hbelow
    rw [hcapped, min_eq_left hbelow.le]

theorem Extrapolation.settles (hnan : r.minStep ≠ .nan) {m : ℝ}
    (hm : ∀ t v, r.InRange t → r.Decreases (.finite t) v → t ≤ m) (k : Nat) :
    ∀ (e : Extrapolation Extended) (low step : ℝ), e.Certified r low step → m < low * 2 ^ k →
      Logged.Settles (fun fuel => runStages r fuel (.extrapolation e)) E (Ending.Certified r) := by
  -- The step is doubled each time, and it cannot get beyond what decreases the objective.
  induction k with
  | zero =>
    intro e low step he hlt
    have := hm low e.lowValue (he.inRange.mono he.lt.le) he.decreases
    rw [pow_zero, mul_one] at hlt
    linarith
  | succ k ih =>
    intro e low step he hlt
    apply Stage.settles_of_follows hr hE (s := .extrapolation e) ⟨low, step, he⟩
    intro s' hs' hfollows
    cases s' with
    | trial t => exact hfollows.elim
    | bracket b increment => exact Bracket.settles_of_certified hr hE hnan hs'
    | extrapolation e' =>
      obtain ⟨hlow', hbelow⟩ := hfollows
      obtain ⟨low', step', he'⟩ := hs'
      rw [he.step_eq_double hr hbelow, he'.low_eq, finite_inj] at hlow'
      subst hlow'
      apply ih e' (2 * low) step' he'
      rw [pow_succ] at hlt
      linarith

theorem Extrapolation.settles_of_certified (hstops : r.Stops) {e : Extrapolation Extended}
    (he : (Stage.extrapolation e).Certified r) :
    Logged.Settles (fun fuel => runStages r fuel (.extrapolation e)) E (Ending.Certified r) := by
  obtain ⟨m, hm⟩ := hstops.bounded
  obtain ⟨low, step, he⟩ := he
  obtain ⟨k, hk⟩ := pow_unbounded_of_one_lt (m / low) (y := 2) (by norm_num)
  apply Extrapolation.settles hr hE hstops.minStep hm k e low step he
  rw [div_lt_iff₀ he.pos] at hk
  linarith

theorem Trial.settles_of_shorter (hstops : r.Stops) {t : Trial Extended} {step : ℝ} (ht : t.Certified r step)
    (h : ∀ (t' : Trial Extended) (step' : ℝ), t'.Certified r step' → step' ≤ step / 2 →
      (¬Extended.finite step < r.minStep ∨ ¬Extended.finite step' ≤ r.parameters.precision.epsilon) →
      Logged.Settles (fun fuel => runStages r fuel (.trial t')) E (Ending.Certified r)) :
    Logged.Settles (fun fuel => runStages r fuel (.trial t)) E (Ending.Certified r) := by
  apply Stage.settles_of_follows hr hE (s := .trial t) ⟨step, ht⟩
  intro s' hs' hfollows
  cases s' with
  | bracket b increment => exact Bracket.settles_of_certified hr hE hstops.minStep hs'
  | extrapolation e => exact Extrapolation.settles_of_certified hr hE hstops hs'
  | trial t' =>
    obtain ⟨step'', ht'⟩ := hs'
    obtain ⟨_, step', hstep₀, hstep', hle, hlong⟩ := hfollows
    rw [ht.step_eq, finite_inj] at hstep₀
    subst hstep₀
    rw [ht'.step_eq, finite_inj] at hstep'
    subst hstep'
    exact h t' step'' ht' hle hlong

theorem Trial.settles (hstops : r.Stops) {m epsilon : ℝ}
    (hmin : ∀ t, ¬Extended.finite t < r.minStep → m ≤ t)
    (hepsilon : r.parameters.precision.epsilon = .finite epsilon) (hpos : 0 < epsilon) (k : Nat) :
    ∀ (t : Trial Extended) (step : ℝ), t.Certified r step → step < min m epsilon * 2 ^ k →
      Logged.Settles (fun fuel => runStages r fuel (.trial t)) E (Ending.Certified r) := by
  -- The step is at most half as long each time, so `k` more make it negligible.
  induction k with
  | zero =>
    intro t step ht hlt
    apply Trial.settles_of_shorter hr hE hstops ht
    intro t' step' ht' hle hlong
    rw [pow_zero, mul_one, lt_min_iff] at hlt
    cases hlong with
    | inl hnot => exact absurd (hmin step hnot) (not_le.mpr hlt.1)
    | inr hnot =>
      have := ht.pos
      rw [hepsilon, finite_le, not_le] at hnot
      linarith
  | succ k ih =>
    intro t step ht hlt
    apply Trial.settles_of_shorter hr hE hstops ht
    intro t' step' ht' hle _
    apply ih t' step' ht'
    rw [pow_succ] at hlt
    linarith

theorem Trial.settles_of_certified (hstops : r.Stops) {t : Trial Extended}
    (ht : (Stage.trial t).Certified r) :
    Logged.Settles (fun fuel => runStages r fuel (.trial t)) E (Ending.Certified r) := by
  obtain ⟨m, hm, _, hmin⟩ := hr.exists_minStep hstops.minStep
  obtain ⟨epsilon, hepsilon, hpos⟩ := hstops.epsilon
  obtain ⟨step, ht⟩ := ht
  have hboth := lt_min hm hpos
  obtain ⟨k, hk⟩ := pow_unbounded_of_one_lt (step / min m epsilon) (y := 2) (by norm_num)
  apply Trial.settles hr hE hstops hmin hepsilon hpos k t step ht
  rw [div_lt_iff₀ hboth] at hk
  linarith

end Stages

end LineSearch

end BoxDescent

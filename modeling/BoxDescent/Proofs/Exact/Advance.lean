import BoxDescent.Proofs.Exact.Certificate

/-!
This module contains the steps of a line search in exact arithmetic, for an objective and a gradient that
may answer anything. One advance keeps what a stage knows and makes progress
(`Stage.advance_certified`), so a step that a search takes has a verdict (`runStages_certified`).
-/

namespace BoxDescent.LineSearch

open Extended

variable {n : Nat} {r : Ray Extended n} {E : Error Extended → Prop} {rate c₁ c₂ : ℝ}

def Stage.Certifies (r : Ray Extended n) (s : Stage Extended) : Next Extended → Prop
  | .inl s' => s'.Certified r ∧ s.Follows r s'
  | .inr ending => ending.Certified r

section Bracket

theorem Bracket.next_of_not_lt {b : Bracket Extended} (h : ¬b.slope < r.curvatureSlope) :
    (b.next r).Meets (fun _ => True) E (· = .inr (.accepted b.last b.lastValue)) := by
  unfold Bracket.next
  rw [if_neg h]
  apply meets_note_bind trivial
  exact Logged.meets_pure rfl

theorem Bracket.next_of_not_wide {b : Bracket Extended} (h : b.slope < r.curvatureSlope)
    (hwide : ¬b.width ≥ r.minStep) :
    (b.next r).Meets (fun _ => True) E (· = .inr (.accepted b.low b.lowValue)) := by
  unfold Bracket.next
  rw [if_pos h, if_neg hwide]
  apply meets_note_bind trivial
  exact Logged.meets_pure rfl

theorem Bracket.Certified.increment_cases {b : Bracket Extended} {low width : ℝ}
    (hb : b.Certified r low width) :
    bracketIncrement b.slope b.width b.lowValue b.highValue = .nan ∨
      ∃ s, bracketIncrement b.slope b.width b.lowValue b.highValue = .finite s ∧ width / 5 ≤ s ∧
        s ≤ 4 * width / 5 := by
  rw [hb.width_eq]
  exact bracketIncrement_cases hb.wide _ _ _

theorem Bracket.next_certified {b : Bracket Extended} {low width : ℝ} (hb : b.Certified r low width) :
    (b.next r).Meets (fun _ => True) E fun
      | .inl s => s.Certified r ∧ r.minStep ≤ b.width ∧ ∃ increment, s = .bracket b increment
      | .inr ending => ending.Certified r := by
  by_cases hwide : b.width ≥ r.minStep
  . have hfeasible : b.low + bracketIncrement b.slope b.width b.lowValue b.highValue = .nan ∨
        ∃ t, b.low + bracketIncrement b.slope b.width b.lowValue b.highValue = .finite t ∧
          r.InRange t := by
      rw [hb.low_eq]
      apply hb.increment_cases.imp
      . intro hnan
        rw [hnan]
        rfl
      . intro hfinite
        obtain ⟨s, hs, _, hle⟩ := hfinite
        have := hb.wide
        rw [hs, finite_add]
        exact ⟨_, rfl, hb.inRange.mono (by linarith)⟩
    unfold Bracket.next
    rw [if_pos hb.steep, if_pos hwide]
    apply Logged.Meets.bind (Ray.checkFeasible_inRange hfeasible _)
    intro _ _
    apply Logged.meets_pure
    exact ⟨⟨⟨low, width, hb⟩, rfl⟩, hwide, _, rfl⟩
  . apply (Bracket.next_of_not_wide hb.steep hwide).imp
    rintro _ rfl
    have hpos := hb.wide
    rw [hb.width_eq] at hwide
    refine ⟨low, hb.low_eq, hb.pos, hb.inRange.mono (by linarith),
      .confined b.slope hb.decreases hb.slope hb.steep ?_⟩
    apply Ray.Confined.narrow (low + width) b.highValue (by linarith) hb.inRange hb.fails
    rw [add_sub_cancel_left]
    exact hwide

theorem Bracket.between_certified {low high : ℝ} {lowValue slope highValue last lastValue : Extended}
    (hpos : 0 < low) (hlt : low < high) (hrange : r.InRange high)
    (hlow : r.Decreases (.finite low) lowValue) (hslope : r.HasSlope (.finite low) slope)
    (hsteep : slope < r.curvatureSlope) (hhigh : r.Fails (.finite high) highValue) :
    (Bracket.between (.finite low) lowValue slope (.finite high) highValue last lastValue).Certified r low
      (high - low) := by
  refine ⟨rfl, finite_sub, hpos, by linarith, ?_, hlow, hslope, hsteep, ?_⟩
  . rw [add_sub_cancel]
    exact hrange
  . rw [add_sub_cancel]
    exact hhigh

theorem Bracket.Certified.raise {b : Bracket Extended} {low width s : ℝ} (hb : b.Certified r low width)
    (hshort : 0 < s) (hlong : s < width) {v slope last lastValue : Extended}
    (hv : r.Decreases (.finite (low + s)) v) (hslope : r.HasSlope (.finite (low + s)) slope)
    (hsteep : slope < r.curvatureSlope) :
    Bracket.Certified r { b with low := .finite (low + s), lowValue := v, slope
                                 width := b.width - .finite s, last, lastValue } (low + s) (width - s) := by
  have hpos := hb.pos
  have hsum : low + s + (width - s) = low + width := by ring
  refine ⟨rfl, ?_, by linarith, by linarith, ?_, hv, hslope, hsteep, ?_⟩
  . dsimp only
    rw [hb.width_eq, finite_sub]
  . rw [hsum]
    exact hb.inRange
  . rw [hsum]
    exact hb.fails

theorem Bracket.Certified.lower {b : Bracket Extended} {low width s : ℝ} (hb : b.Certified r low width)
    (hshort : 0 < s) (hlong : s < width) {v last lastValue : Extended}
    (hv : r.Fails (.finite (low + s)) v) :
    Bracket.Certified r { b with width := .finite s, highValue := v, last, lastValue } low s :=
  ⟨hb.low_eq, rfl, hb.pos, hshort, hb.inRange.mono (by linarith), hb.decreases, hb.slope, hb.steep, hv⟩

theorem Bracket.start_certified {low high : ℝ} {lowValue slope highValue last lastValue : Extended}
    (hpos : 0 < low) (hlt : low < high) (hrange : r.InRange high)
    (hlow : r.Decreases (.finite low) lowValue) (hslope : r.HasSlope (.finite low) slope)
    (hsteep : slope < r.curvatureSlope ∨ slope = .nan) (hhigh : r.Fails (.finite high) highValue)
    (hlast : slope = .nan → (Ending.accepted last lastValue).Certified r) :
    (Bracket.start r (.finite low) lowValue slope (.finite high) highValue last lastValue).Meets
      (fun _ => True) E fun
      | .inl s => s.Certified r ∧ ∃ b increment, s = .bracket b increment
      | .inr ending => ending.Certified r := by
  unfold Bracket.start
  apply meets_note_bind trivial
  cases hsteep with
  | inl hsteep =>
    have hcertified : (Bracket.between (.finite low) lowValue slope (.finite high) highValue last
        lastValue).Certified r low (high - low) :=
      Bracket.between_certified hpos hlt hrange hlow hslope hsteep hhigh
    apply (Bracket.next_certified hcertified).imp
    intro next hnext
    cases next with
    | inl s =>
      obtain ⟨hs, _, increment, heq⟩ := hnext
      exact ⟨hs, _, increment, heq⟩
    | inr ending => exact hnext
  | inr hnan =>
    apply (Bracket.next_of_not_lt _).imp
    . rintro _ rfl
      exact hlast hnan
    . dsimp only
      rw [hnan]
      exact fun h => (Scalar.le_of_lt h).elim

variable (hr : r.Descends rate c₁ c₂) (hE : r.problem.Tolerates E)
include hr hE

theorem Bracket.advance_certified {b : Bracket Extended} {increment v : Extended}
    (hs : (Stage.bracket b increment).Certified r) (hv : r.HasValue (b.low + increment) v) :
    (b.advance r increment v).Meets (fun _ => True) E ((Stage.bracket b increment).Certifies r) := by
  obtain ⟨⟨low, width, hb⟩, hincrement⟩ := hs
  have hpos := hb.pos
  have hwide := hb.wide
  have hcases := hb.increment_cases
  rw [← hincrement] at hcases
  unfold Bracket.advance
  dsimp only
  cases hcases with
  | inl hnan =>
    -- The objective is not even looked at where the step is undefined, and the bracket is closed.
    have hstep : b.low + increment = .nan := by
      rw [hnan, add_nan]
    rw [hstep, Ray.threshold_nan, if_neg not_le_nan, hnan]
    apply (Bracket.next_of_not_wide (b := { b with
      width := .nan, highValue := v, last := .nan, lastValue := v }) hb.steep not_le_nan).imp
    rintro _ rfl
    refine ⟨low, hb.low_eq, hpos, hb.inRange.mono (by linarith),
      .confined b.slope hb.decreases hb.slope hb.steep ?_⟩
    apply Ray.Confined.undefined (low + width) b.highValue (by linarith) hb.inRange hb.fails
    rw [add_sub_cancel_left, ← hb.width_eq, ← hincrement]
    exact hnan
  | inr hfinite =>
    obtain ⟨s, rfl, hshort, hlong⟩ := hfinite
    rw [hb.low_eq, finite_add] at hv ⊢
    have hrange : r.InRange (low + s) := hb.inRange.mono (by linarith)
    -- The bracket that is left has at most four fifths of the width.
    have hcertifies : ∀ (b' : Bracket Extended) (low' width' : ℝ), b'.Certified r low' width' →
        width' ≤ 4 * width / 5 →
        (b'.next r).Meets (fun _ => True) E ((Stage.bracket b (.finite s)).Certifies r) := by
      intro b' low' width' hb' hnarrow
      apply (Bracket.next_certified hb').imp
      intro next hnext
      cases next with
      | inl s' =>
        obtain ⟨hs', hmin, increment', rfl⟩ := hnext
        rw [hb'.width_eq] at hmin
        exact ⟨hs', width, width', hb.width_eq, hb'.width_eq, hnarrow, hmin⟩
      | inr ending => exact hnext
    split
    . next hle =>
      apply Logged.Meets.bind (Ray.slopeAt_hasSlope hE _)
      intro slope hslope
      split
      . next hsteep =>
        exact hcertifies _ (low + s) (width - s) (hb.raise (by linarith) (by linarith) ⟨hv, hle⟩ hslope hsteep)
          (by linarith)
      . next hnot =>
        apply (Bracket.next_of_not_lt hnot).imp
        rintro _ rfl
        refine ⟨low + s, rfl, by linarith, hrange, ?_⟩
        cases hr.flat_of_not_lt hnot with
        | inl hflat => exact .conditions slope ⟨hv, hle⟩ hslope hflat
        | inr hnan => exact .undefinedSlope ⟨hv, hle⟩ (hnan ▸ hslope)
    . next hgt =>
      exact hcertifies _ low s (hb.low_eq ▸ hb.lower (by linarith) (by linarith) ⟨hv, hgt⟩) hlong

end Bracket

section Extrapolation

variable (hr : r.Descends rate c₁ c₂)
include hr

theorem Extrapolation.next_certified {low : ℝ} {f slope : Extended} (hpos : 0 < low)
    (hrange : r.InRange low) (hlow : r.Decreases (.finite low) f)
    (hslope : r.HasSlope (.finite low) slope) (hsteep : slope < r.curvatureSlope ∨ slope = .nan) :
    (Extrapolation.next r (.finite low) f slope).Meets (fun _ => True) E fun
      | .inl s => s.Certified r ∧ ∃ e, s = .extrapolation e ∧ e.low = .finite low ∧
          below (.finite low) r.extrapolationLimit = true
      | .inr ending => ending.Certified r := by
  have hdouble : (2.0 : Extended) * .finite low = .finite (2 * low) := ofScientific_mul (by norm_num)
  unfold Extrapolation.next
  split
  . next hbelow =>
    have hstep : ∃ step, capped (2.0 * .finite low) r.extrapolationLimit = .finite step ∧
        low < step ∧ r.InRange step := by
      rw [hdouble]
      cases hr.limit_cases with
      | inl hnone =>
        rw [hnone.1]
        exact ⟨2 * low, rfl, by linarith, hnone.2 _⟩
      | inr hsome =>
        obtain ⟨m, hm, hiff⟩ := hsome
        rw [hm] at hbelow ⊢
        simp only [below, decide_eq_true_eq, finite_lt] at hbelow
        exact ⟨min (2 * low) m, pickMin_finite, lt_min (by linarith) hbelow,
          (hiff _).mpr (min_le_right _ _)⟩
    obtain ⟨step, hstep, hlt, hstepRange⟩ := hstep
    apply meets_note_bind trivial
    apply Logged.meets_pure
    exact ⟨⟨low, step, rfl, hstep, hpos, hlt, hstepRange, hlow, hslope, hsteep, rfl⟩, _, rfl, rfl,
      hbelow⟩
  . next hnot =>
    have hlimit : ∀ t, r.InRange t → t ≤ low := by
      intro t ht
      cases hr.limit_cases with
      | inl hnone =>
        rw [hnone.1] at hnot
        exact absurd rfl hnot
      | inr hsome =>
        obtain ⟨m, hm, hiff⟩ := hsome
        rw [hm] at hnot
        simp only [below, decide_eq_true_eq, finite_lt, not_lt] at hnot
        exact ((hiff t).mp ht).trans hnot
    unfold Bracket.start
    apply meets_note_bind trivial
    cases hsteep with
    | inl hsteep =>
      -- The bracket has no width at all.
      have hwidth : ¬Extended.finite low - .finite low ≥ r.minStep := by
        rw [finite_sub, sub_self]
        exact hr.minStep
      apply (Bracket.next_of_not_wide hsteep hwidth).imp
      rintro _ rfl
      exact ⟨low, rfl, hpos, hrange, .confined slope hlow hslope hsteep (.limit hlimit)⟩
    | inr hnan =>
      apply (Bracket.next_of_not_lt _).imp
      . rintro _ rfl
        exact ⟨low, rfl, hpos, hrange, .undefinedSlope hlow (hnan ▸ hslope)⟩
      . dsimp only
        rw [hnan]
        exact fun h => (Scalar.le_of_lt h).elim

omit hr in
theorem Extrapolation.Certified.not_overflows {e : Extrapolation Extended} {low step : ℝ}
    (he : e.Certified r low step) : e.overflows r = false := by
  unfold Extrapolation.overflows
  rw [he.low_eq, he.step_eq, finite_sub]
  dsimp only
  rw [squareOverflows_finite, Bool.and_false]

theorem Extrapolation.advance_certified (hE : r.problem.Tolerates E) {e : Extrapolation Extended}
    {low step : ℝ} (he : e.Certified r low step) {v : Extended} (hv : r.HasValue e.step v) :
    (e.advance r v).Meets (fun _ => True) E ((Stage.extrapolation e).Certifies r) := by
  have hpos := he.pos
  have hlt := he.lt
  unfold Extrapolation.advance
  rw [he.not_overflows]
  rw [he.step_eq] at hv ⊢
  split
  . next hle =>
    apply Logged.Meets.bind (Ray.slopeAt_hasSlope hE _)
    intro slope hslope
    split
    . next hflat =>
      apply meets_note_bind trivial
      apply Logged.meets_pure
      exact ⟨step, rfl, by linarith, he.inRange, .conditions slope ⟨hv, hle⟩ hslope hflat⟩
    . next hnot =>
      apply (Extrapolation.next_certified hr (by linarith) he.inRange ⟨hv, hle⟩ hslope
        (hr.steep_of_not_ge hnot)).imp
      intro next hnext
      cases next with
      | inr ending => exact hnext
      | inl s =>
        obtain ⟨hs, e', rfl, hlow', hbelow⟩ := hnext
        rw [← he.step_eq] at hlow' hbelow
        exact ⟨hs, hlow', hbelow⟩
  . next hgt =>
    rw [if_neg Bool.false_ne_true, he.low_eq]
    apply (Bracket.start_certified hpos hlt he.inRange he.decreases he.slope he.steep ⟨hv, hgt⟩ _).imp
    . intro next hnext
      cases next with
      | inr ending => exact hnext
      | inl s =>
        obtain ⟨hs, b, increment, rfl⟩ := hnext
        exact ⟨hs, trivial⟩
    . intro hnan
      exact ⟨step, rfl, by linarith, he.inRange,
        .unseen low e.lowValue hlt he.decreases (hnan ▸ he.slope) ⟨hv, hgt⟩⟩

end Extrapolation

section Trial

variable (hr : r.Descends rate c₁ c₂)
include hr

theorem Trial.Certified.giveUp {t : Trial Extended} {step : ℝ} (ht : t.Certified r step) {f : Extended}
    (hf : r.Fails (.finite step) f) (hmin : t.step < r.minStep) :
    (t.giveUp r).Meets (fun _ => True) E ((Stage.trial t).Certifies r) := by
  unfold Trial.giveUp
  split
  . next value hvalue =>
    obtain ⟨first, hfirst, hpos, hrange⟩ := hr.firstTrial_inRange
    have hfails := ht.known value hvalue
    rw [ht.step_eq] at hmin
    split
    . next hlt =>
      apply meets_note_bind trivial
      apply Logged.meets_pure
      rw [hfirst] at hfails
      exact ⟨first, hfirst, hpos, hrange, .fullStep step f hfirst hfails hlt ht.pos hmin hf⟩
    . apply meets_note_bind trivial
      exact Logged.meets_pure trivial
  . apply meets_note_bind trivial
    exact Logged.meets_pure trivial

theorem Trial.Certified.shorter_step {t : Trial Extended} {step f : ℝ} (ht : t.Certified r step)
    (hf : r.Fails (.finite step) (.finite f)) :
    ∃ s, (t.shorter r (.finite f)).step = .finite s ∧ step / 10 ≤ s ∧ s ≤ step / 2 := by
  have hfinite : ∃ f₀, r.value = .finite f₀ := by
    cases hr.value with
    | inl hinf =>
      -- Every value is a decrease from an infinite one.
      have hthreshold : r.threshold (.finite step) = .posInf := by
        rw [hr.threshold_eq, hinf]
        rfl
      have hnot := hf.2
      rw [hthreshold] at hnot
      exact absurd trivial hnot
    | inr hfinite => exact hfinite
  obtain ⟨f₀, hf₀⟩ := hfinite
  unfold Trial.shorter
  dsimp only
  rw [hf₀, hr.slope, ht.step_eq]
  apply shorten_finite ht.pos
  split
  . exact quadraticMinimiser_ne_nan ht.pos hr.descends
  . next hcount =>
    obtain ⟨previous, g, hprev, hprevValue, hlt, _, _⟩ := ht.previous hcount
    rw [hprev, hprevValue]
    exact cubicMinimiser_ne_nan ht.pos hlt hr.descends

omit hr in
theorem Trial.Certified.shorter {t : Trial Extended} {step f s : ℝ} (ht : t.Certified r step)
    (hf : r.Fails (.finite step) (.finite f)) (hs : (t.shorter r (.finite f)).step = .finite s)
    (hpos : 0 < s) (hle : s ≤ step / 2) : (t.shorter r (.finite f)).Certified r s := by
  have hstep := ht.pos
  refine ⟨hs, hpos, ht.inRange.mono (by linarith), ?_, ?_, ?_⟩
  . intro hpending
    unfold Trial.shorter at hpending
    dsimp only at hpending
    split at hpending
    . split at hpending
      . cases hpending
      . cases hpending
    . next hnot => exact absurd hpending (hnot ·)
  . intro v hv
    unfold Trial.shorter at hv
    dsimp only at hv
    split at hv
    . next hpending =>
      split at hv
      . cases hv
        rw [← (ht.pending hpending).2, ht.step_eq]
        exact hf
      . cases hv
    . exact ht.known v hv
  . intro _
    exact ⟨step, f, ht.step_eq, rfl, by linarith, ht.inRange, hf⟩

omit hr in
theorem Trial.Certified.halve {t : Trial Extended} {step : ℝ} (ht : t.Certified r step) :
    Trial.Certified r { t with step := .finite (step / 2), first := .unusable } (step / 2) := by
  have hpos := ht.pos
  refine ⟨rfl, by linarith, ht.inRange.mono (by linarith), nofun, nofun, ?_⟩
  intro hcount
  obtain ⟨previous, f, hprev, hprevValue, hlt, hrange, hfails⟩ := ht.previous hcount
  exact ⟨previous, f, hprev, hprevValue, by linarith, hrange, hfails⟩

omit hr in
theorem Trial.Certified.advance_nonfinite {t : Trial Extended} {step : ℝ} (ht : t.Certified r step)
    {v : Extended} (hv : (!Scalar.isFinite v) = true) :
    (t.advance r v).Meets (fun _ => True) E ((Stage.trial t).Certifies r) := by
  have hhalf : Extended.finite step * 0.5 = .finite (step / 2) := by
    rw [ofScientific_eq, finite_mul]
    congr 1
    ring
  unfold Trial.advance
  rw [if_pos hv, ht.step_eq, hhalf]
  dsimp only
  split
  . apply meets_note_bind trivial
    exact Logged.meets_pure trivial
  . next hnot =>
    apply meets_note_bind trivial
    apply Logged.meets_pure
    exact ⟨⟨step / 2, ht.halve⟩, step, step / 2, ht.step_eq, rfl, le_refl _, Or.inr hnot⟩

theorem Trial.Certified.advance_decrease (hE : r.problem.Tolerates E) {t : Trial Extended} {step f : ℝ}
    (ht : t.Certified r step) (hf : r.Decreases (.finite step) (.finite f)) :
    (t.advance r (.finite f)).Meets (fun _ => True) E ((Stage.trial t).Certifies r) := by
  have hpos := ht.pos
  unfold Trial.advance
  rw [isFinite_finite, Bool.not_true, if_neg Bool.false_ne_true]
  apply meets_note_bind trivial
  rw [ht.step_eq, if_pos hf.2]
  apply Logged.Meets.bind (Ray.slopeAt_hasSlope hE _)
  intro slope hslope
  split
  . next hflat =>
    apply meets_note_bind trivial
    apply Logged.meets_pure
    exact ⟨step, rfl, hpos, ht.inRange, .conditions slope hf hslope hflat⟩
  . next hnot =>
    have hsteep := hr.steep_of_not_ge hnot
    split
    . next hcount =>
      -- The trial before it was too long, so this one is the low end of a bracket.
      obtain ⟨previous, g, hprev, hprevValue, hlt, hprevRange, hprevFails⟩ := ht.previous (by omega)
      rw [hprev, hprevValue]
      apply (Bracket.start_certified hpos hlt hprevRange hf hslope hsteep hprevFails _).imp
      . intro next hnext
        cases next with
        | inr ending => exact hnext
        | inl s =>
          obtain ⟨hs, b, increment, rfl⟩ := hnext
          exact ⟨hs, trivial⟩
      . intro hnan
        exact ⟨step, rfl, hpos, ht.inRange, .undefinedSlope hf (hnan ▸ hslope)⟩
    . apply (Extrapolation.next_certified hr hpos ht.inRange hf hslope hsteep).imp
      intro next hnext
      cases next with
      | inr ending => exact hnext
      | inl s =>
        obtain ⟨hs, e, rfl, _⟩ := hnext
        exact ⟨hs, trivial⟩

theorem Trial.Certified.advance_failure {t : Trial Extended} {step f : ℝ} (ht : t.Certified r step)
    (hf : r.Fails (.finite step) (.finite f)) :
    (t.advance r (.finite f)).Meets (fun _ => True) E ((Stage.trial t).Certifies r) := by
  have hpos := ht.pos
  have hgt := hf.2
  rw [← ht.step_eq] at hgt
  unfold Trial.advance
  rw [isFinite_finite, Bool.not_true, if_neg Bool.false_ne_true]
  apply meets_note_bind trivial
  rw [if_neg hgt]
  split
  . next hmin => exact ht.giveUp hr hf hmin
  . next hmin =>
    obtain ⟨s, hs, hge, hle⟩ := ht.shorter_step hr hf
    rw [ht.step_eq] at hmin
    dsimp only
    rw [hs]
    apply Logged.Meets.bind
      (Ray.checkFeasible_inRange (Or.inr ⟨s, rfl, ht.inRange.mono (by linarith)⟩) _)
    intro _ _
    apply meets_note_bind trivial
    apply Logged.meets_pure
    exact ⟨⟨s, ht.shorter hf hs (by linarith) hle⟩, step, s, ht.step_eq, hs, hle, Or.inl hmin⟩

theorem Trial.advance_certified (hE : r.problem.Tolerates E) {t : Trial Extended} {step : ℝ}
    (ht : t.Certified r step) {v : Extended} (hv : r.HasValue t.step v) :
    (t.advance r v).Meets (fun _ => True) E ((Stage.trial t).Certifies r) := by
  rw [ht.step_eq] at hv
  cases hfinite : Scalar.isFinite v with
  | false => exact ht.advance_nonfinite (by rw [hfinite, Bool.not_false])
  | true =>
    obtain ⟨f, rfl⟩ := isFinite_iff.mp hfinite
    by_cases hle : .finite f ≤ r.threshold (.finite step)
    . exact ht.advance_decrease hr hE ⟨hv, hle⟩
    . exact ht.advance_failure hr ⟨hv, hle⟩

end Trial

section Run

variable (hr : r.Descends rate c₁ c₂) (hE : r.problem.Tolerates E)
include hr hE

theorem Stage.advance_certified {s : Stage Extended} (hs : s.Certified r) {v : Extended}
    (hv : r.HasValue s.step v) :
    (s.advance r v).Meets (fun _ => True) E (s.Certifies r) := by
  cases s with
  | trial t =>
    obtain ⟨step, ht⟩ := hs
    exact Trial.advance_certified hr hE ht hv
  | extrapolation e =>
    obtain ⟨low, step, he⟩ := hs
    exact Extrapolation.advance_certified hr hE he hv
  | bracket b increment => exact Bracket.advance_certified hr hE hs hv

theorem runStages_certified (hfuel : E .outOfFuel) (fuel : Nat) {s : Stage Extended}
    (hs : s.Certified r) :
    (runStages r fuel s).Meets (fun _ => True) E (Ending.Certified r) := by
  induction fuel generalizing s with
  | zero => exact Logged.meets_fail hfuel
  | succ fuel ih =>
    unfold runStages
    apply Logged.Meets.bind (Ray.valueAt_hasValue hE s.step)
    intro v hv
    apply Logged.Meets.bind (Stage.advance_certified hr hE hs hv)
    intro next hnext
    cases next with
    | inl s' => exact ih hnext.1
    | inr ending => exact Logged.meets_pure hnext

end Run

end BoxDescent.LineSearch

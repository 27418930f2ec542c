import BoxDescent.Proofs.Exact.Descent
import BoxDescent.Proofs.Exact.Line

/-!
This module contains line searches that go beyond the full step. A full step that is too short is doubled,
and past an undefined slope the doubled step is taken whatever the objective is there
(`LineSearch.runStages_past_undefined`). The searches of `Cliff` go down to where the objective jumps.
-/

namespace BoxDescent

open Extended

namespace LineSearch

variable {n : Nat} {r : Ray Extended n} {f m : ℝ} {v slope : Extended}

theorem advance_doubled (hstep : (firstTrial r).step = .finite 1) (hf : r.Decreases (.finite 1) (.finite f))
    (hslope : r.HasSlope (.finite 1) slope) (hsteep : ¬slope ≥ r.curvatureSlope)
    (hlimit : r.extrapolationLimit = some (.finite m)) (hm : 2 ≤ m) :
    ((firstTrial r).advance r (.finite f)).result = .ok (.inl (.extrapolation
      { low := .finite 1, lowValue := .finite f, lowSlope := slope, step := .finite 2 })) := by
  have hcount : ¬(firstTrial r).count > 0 := lt_irrefl 0
  have hbelow : below (.finite 1) (some (Extended.finite m)) = true := by
    unfold below
    dsimp only
    rw [decide_eq_true_eq, finite_lt]
    linarith
  have hdouble : capped ((2.0 : Extended) * .finite 1) (some (.finite m)) = .finite 2 := by
    show Scalar.pickMin _ _ = _
    rw [ofScientific_eq, finite_mul, pickMin_finite]
    norm_num
    exact hm
  unfold Trial.advance
  rw [hstep, isFinite_finite, if_neg (by decide), result_note_bind, if_pos hf.2,
    Logged.result_bind_of_ok hslope.slopeAt_result, if_neg hsteep, if_neg hcount]
  unfold Extrapolation.next
  rw [hlimit, if_pos hbelow, hdouble]
  rfl

theorem runStages_doubled (hstep : (firstTrial r).step = .finite 1)
    (hf : r.Decreases (.finite 1) (.finite f)) (hslope : r.HasSlope (.finite 1) slope)
    (hsteep : ¬slope ≥ r.curvatureSlope) (hlimit : r.extrapolationLimit = some (.finite m)) (hm : 2 ≤ m)
    (hv : r.HasValue (.finite 2) v) {ending : Ending Extended}
    (hending : (Extrapolation.advance r { low := .finite 1, lowValue := .finite f, lowSlope := slope
                                          step := .finite 2 } v).result = .ok (.inr ending)) (fuel : Nat) :
    (runStages r (fuel + 2) (.trial (firstTrial r))).result = .ok ending := by
  have hfirst : r.HasValue (Stage.trial (firstTrial r)).step (.finite f) := by
    show r.HasValue (firstTrial r).step _
    rw [hstep]
    exact hf.1
  have hsecond : r.HasValue (Stage.extrapolation { low := .finite 1, lowValue := .finite f
                                                   lowSlope := slope, step := .finite 2 }).step v := hv
  rw [runStages_of_next hfirst (advance_doubled hstep hf hslope hsteep hlimit hm)]
  exact runStages_of_ending hsecond hending fuel

theorem Extrapolation.advance_past_undefined {e : Extrapolation Extended} (hslope : e.lowSlope = .nan)
    (hfails : ¬v ≤ r.threshold e.step) :
    (e.advance r v).result = .ok (.inr (.accepted e.step v)) := by
  have hoverflows : e.overflows r = false := by
    unfold Extrapolation.overflows
    dsimp only
    rw [hslope, decide_eq_false not_nan_lt, Bool.and_false, Bool.false_and, Bool.false_and]
  unfold Extrapolation.advance
  rw [if_neg hfails, hoverflows, if_neg Bool.false_ne_true]
  unfold Bracket.start
  rw [result_note_bind]
  unfold Bracket.next
  dsimp only
  rw [hslope, if_neg not_nan_lt, result_note_bind]
  rfl

/-- Past a step with an undefined slope the next trial is taken, although the objective is too high there. -/
theorem runStages_past_undefined (hstep : (firstTrial r).step = .finite 1)
    (hf : r.Decreases (.finite 1) (.finite f)) (hslope : r.HasSlope (.finite 1) .nan)
    (hlimit : r.extrapolationLimit = some (.finite m)) (hm : 2 ≤ m) (hv : r.Fails (.finite 2) v)
    (fuel : Nat) :
    (runStages r (fuel + 2) (.trial (firstTrial r))).result = .ok (.accepted (.finite 2) v) :=
  runStages_doubled hstep hf hslope not_le_nan hlimit hm hv.1
    (Extrapolation.advance_past_undefined rfl hv.2) fuel

end LineSearch

namespace Cliff

open LineSearch

noncomputable def problem (bottom slope : Extended) : Problem Extended 1 :=
  { objective := fun x => .ok (if x[(0 : Fin 1)] < .finite (-3 / 2) then bottom else x[(0 : Fin 1)])
    gradient := fun x => .ok #v[if x[(0 : Fin 1)] < .finite (-1 / 2) then slope else .finite 1] }

noncomputable def parameters : Parameters Extended :=
  { sufficientDecrease := .finite (1 / 10000), curvature := .finite (9 / 10)
    displacementTolerance := .finite 2, precision := Line.precision }

theorem parameters_arePositive :
    parameters.ArePositive (1 / 10000) (9 / 10) (1 / 67108864) where
  sufficientDecrease := rfl
  curvature := rfl
  zero_eq := rfl
  displacementTolerance := by
    show ¬Extended.finite 2 ≤ .finite 0
    rw [finite_le]
    norm_num
  coefficient_pos := by norm_num
  zero_pos := by norm_num

theorem objective_regular {bottom slope : ℝ} (x : Fin 1 → ℝ) (v : Extended)
    (hv : (problem (.finite bottom) (.finite slope)).objective (ofReals x) = .ok v) :
    v = .posInf ∨ ∃ f, v = .finite f := by
  cases hv
  refine Or.inr ?_
  split
  . exact ⟨bottom, rfl⟩
  . exact ⟨x 0, getElem_ofReals x 0⟩

theorem gradient_regular {bottom slope : ℝ} (x : Fin 1 → ℝ) (g : Vector Extended 1)
    (hg : (problem (.finite bottom) (.finite slope)).gradient (ofReals x) = .ok g) :
    ∃ w, g = ofReals w := by
  cases hg
  apply exists_ofReals
  intro i
  rw [Subsingleton.elim i 0]
  show ∃ r, (if (ofReals x)[(0 : Fin 1)] < Extended.finite (-1 / 2) then Extended.finite slope
    else .finite 1) = .finite r
  split
  . exact ⟨slope, rfl⟩
  . exact ⟨1, rfl⟩

noncomputable def ray (bottom slope : Extended) : Ray Extended 1 :=
  Line.ray (problem bottom slope) parameters 0 (.finite 0) 1 (-1) 2 2

noncomputable def result (bottom : Extended) : SearchResult Extended 1 :=
  { x := Line.point (-2), value := bottom, step := .finite 2, slope := .finite (-1), status := .accepted
    newlyFixed := [], direction := Line.point (-1), activeSet := .ofBounds .unbounded }

variable {bottom slope : Extended}

theorem aim_eq : (aim (problem bottom slope) parameters (.ofBounds .unbounded) (Line.point 0) (.finite 0)
    (Line.point 1) (Line.point (-1)) (.finite 2)).result = .ok (.inl (ray bottom slope)) := by
  have hzero : parameters.precision.zero = .finite (1 / 67108864) := rfl
  apply Line.aim_eq hzero (by norm_num) rfl (by norm_num)
  . norm_num
  . norm_num
  . norm_num

theorem limit_eq : (ray bottom slope).extrapolationLimit = some (.finite 2) := by
  show some (Extended.finite (2 / |-1|)) = _
  norm_num

theorem minStep_eq : (ray bottom slope).minStep = .finite 2 := by
  show Extended.finite (2 / (|-1| / max |0| 1)) = _
  norm_num

theorem curvatureSlope_eq : (ray bottom slope).curvatureSlope = .finite (-9 / 10) := by
  show Extended.finite (9 / 10) * .finite (1 * -1) = _
  rw [finite_mul]
  norm_num

theorem threshold_eq (t : ℝ) : (ray bottom slope).threshold (.finite t) = .finite (-t / 10000) := by
  show Extended.finite 0 + .finite (1 / 10000) * .finite t * .finite (1 * -1) = _
  rw [finite_mul, finite_mul, finite_add]
  congr 1
  ring

theorem objective_one : (problem bottom slope).objective (Line.point (0 + 1 * -1)) =
    .ok (.finite (-1)) := by
  unfold problem
  dsimp only
  rw [Line.getElem_point, if_neg]
  . norm_num
  . rw [finite_lt]
    norm_num

theorem objective_two : (problem bottom slope).objective (Line.point (0 + 2 * -1)) = .ok bottom := by
  unfold problem
  dsimp only
  rw [Line.getElem_point, if_pos]
  rw [finite_lt]
  norm_num

theorem hasSlope_ray {t : ℝ} (ht : 1 ≤ t) :
    (ray bottom slope).HasSlope (.finite t) (slope * .finite (-1)) := by
  have hgradient : (problem bottom slope).gradient (Line.point (0 + t * -1)) = .ok #v[slope] := by
    unfold problem
    dsimp only
    rw [Line.getElem_point, if_pos]
    rw [finite_lt]
    linarith
  exact Line.hasSlope_ray hgradient

theorem decreases_one : (ray bottom slope).Decreases (.finite 1) (.finite (-1)) := by
  refine ⟨Line.hasValue_ray objective_one, ?_⟩
  rw [threshold_eq, finite_le]
  norm_num

noncomputable def doubled (slope : Extended) : Extrapolation Extended :=
  { low := .finite 1, lowValue := .finite (-1), lowSlope := slope * .finite (-1), step := .finite 2 }

theorem search_eq {fuel : Nat} (hstages : (runStages (ray bottom slope) fuel
      (.trial (firstTrial (ray bottom slope)))).result = .ok (.accepted (.finite 2) bottom)) :
    (search fuel (problem bottom slope) parameters (.ofBounds .unbounded) (Line.point 0) (.finite 0)
      (Line.point 1) (Line.point (-1)) (.finite 2)).result = .ok (result bottom) := by
  have hpoint : (ray bottom slope).point (.finite 2) = Line.point (-2) := by
    unfold ray
    rw [Line.point_ray]
    norm_num
  unfold search
  rw [Logged.result_bind_of_ok aim_eq]
  show ((ray bottom slope).search fuel).result = _
  rw [Ray.search_of_ending hstages, Ray.finish_unblocked (Or.inl rfl), hpoint]
  show Except.ok { result bottom with slope := .finite (1 * -1) } = _
  norm_num [result]

theorem advance_two (hbottom : bottom ≤ .finite (-2 / 10000)) :
    (Extrapolation.advance (ray bottom (.finite 1)) (doubled (.finite 1)) bottom).result =
      .ok (.inr (.accepted (.finite 2) bottom)) := by
  have hdecrease : bottom ≤ (ray bottom (.finite 1)).threshold (.finite 2) := by
    rw [threshold_eq]
    exact hbottom
  have hslope : ¬Extended.finite 1 * .finite (-1) ≥ .finite (-9 / 10) := by
    rw [finite_mul, ge_iff_le, finite_le]
    norm_num
  have hlimit : ¬below (.finite 2) (some (Extended.finite 2)) = true := by
    unfold below
    dsimp only
    rw [decide_eq_true_eq, finite_lt]
    norm_num
  have hstep : (doubled (.finite 1)).step = .finite 2 := rfl
  have hsteep : Extended.finite 1 * .finite (-1) < (ray bottom (.finite 1)).curvatureSlope := by
    rw [curvatureSlope_eq, finite_mul, finite_lt]
    norm_num
  have hnarrow : ¬Extended.finite 2 - .finite 2 ≥ (ray bottom (.finite 1)).minStep := by
    rw [minStep_eq, finite_sub, ge_iff_le, finite_le]
    norm_num
  unfold Extrapolation.advance
  rw [hstep, if_pos hdecrease, Logged.result_bind_of_ok (hasSlope_ray one_le_two).slopeAt_result,
    curvatureSlope_eq, if_neg hslope]
  unfold Extrapolation.next
  rw [limit_eq, if_neg hlimit]
  unfold Bracket.start
  rw [result_note_bind]
  unfold Bracket.next
  dsimp only
  rw [if_pos hsteep, if_neg hnarrow, result_note_bind]
  rfl

theorem search_two (hbottom : bottom ≤ .finite (-2 / 10000)) (fuel : Nat) :
    (search (fuel + 2) (problem bottom (.finite 1)) parameters (.ofBounds .unbounded) (Line.point 0)
      (.finite 0) (Line.point 1) (Line.point (-1)) (.finite 2)).result = .ok (result bottom) := by
  have hsteep : ¬Extended.finite 1 * .finite (-1) ≥ (ray bottom (.finite 1)).curvatureSlope := by
    rw [curvatureSlope_eq, finite_mul, ge_iff_le, finite_le]
    norm_num
  apply search_eq
  exact runStages_doubled rfl decreases_one (hasSlope_ray le_rfl) hsteep limit_eq le_rfl
    (Line.hasValue_ray objective_two) (advance_two hbottom) fuel

theorem search_posInf (fuel : Nat) : (search (fuel + 2) (problem .posInf .nan) parameters
    (.ofBounds .unbounded) (Line.point 0) (.finite 0) (Line.point 1) (Line.point (-1)) (.finite 2)).result =
      .ok (result .posInf) := by
  have hfails : ¬Extended.posInf ≤ (ray .posInf .nan).threshold (.finite 2) := by
    rw [threshold_eq]
    exact id
  apply search_eq
  exact runStages_past_undefined rfl decreases_one (hasSlope_ray le_rfl) limit_eq le_rfl
    ⟨Line.hasValue_ray objective_two, hfails⟩ fuel

end Cliff

end BoxDescent

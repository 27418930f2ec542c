import BoxDescent.Solver
import BoxDescent.Proofs.Exact.Vector
import BoxDescent.Proofs.LineSearch.Search

/-!
This module contains line searches in one variable, where every step of the search can be followed: where
they aim (`Line.aim_in`), and what they come to if the full step is taken (`Line.search_taken`) or the
variable is on its bound already (`Line.search_snaps`).
-/

namespace BoxDescent

open Extended

namespace Line

def point (x : ℝ) : Vector Extended 1 :=
  ofReals fun _ => x

abbrev free : Vector Bool 1 :=
  Vector.replicate 1 false

theorem getElem_point (x : ℝ) (i : Fin 1) : (point x)[i] = .finite x :=
  getElem_ofReals _ i

theorem isFinite_point (x : ℝ) (i : Fin 1) : Scalar.isFinite (point x)[i] = true :=
  exists_ofReals_iff.mp ⟨_, rfl⟩ i

theorem eq_point (x : Fin 1 → ℝ) : ofReals x = point (x 0) := by
  unfold point
  rw [ofReals_inj]
  funext i
  rw [Subsingleton.elim i 0]

theorem unmasked_free : unmasked free = [0] := rfl

theorem dotOver_point (x y : ℝ) : dotOver [0] (point x) (point y) = .finite (x * y) := by
  unfold point
  rw [dotOver_ofReals, List.map_singleton, List.sum_singleton]

theorem normOver_point (x : ℝ) : normOver [0] (point x) = .finite |x| := by
  unfold point
  rw [normOver_ofReals, List.map_singleton, List.sum_singleton, Real.sqrt_mul_self_eq_abs]

noncomputable def precision : Precision Extended :=
  { epsilon := .finite (1 / 4503599627370496), zero := .finite (1 / 67108864) }

theorem epsilon_pos : (0 : ℝ) < 1 / 4503599627370496 := by
  norm_num

theorem zero_pos : (0 : ℝ) < 1 / 67108864 := by
  norm_num

theorem precision_positive : precision.Positive :=
  ⟨finite_lt.mpr epsilon_pos, finite_lt.mpr zero_pos⟩

theorem maxNorm_eq (settings : Settings Extended) (g : ℝ) :
    Solver.maxNorm settings 1 (point g) = settings.maxStep * .finite (max |g| 1) := by
  have hrange : List.finRange 1 = [0] := rfl
  unfold Solver.maxNorm norm
  rw [hrange, normOver_point, ofCount_eq, pickMax_finite, Nat.cast_one]

theorem bound_unbounded (i : Fin 1) (side : Side) :
    (Bounds.unbounded : Bounds Extended 1).bound i side = none := by
  cases side with
  | lower => exact getElem_replicate none i
  | upper => exact getElem_replicate none i

theorem reach_eq (p : Precision Extended) (direction x : Vector Extended 1) :
    LineSearch.reach p direction x (.ofBounds .unbounded) [0] = pure {
      step := none, blocking := none, x, activeSet := .ofBounds .unbounded, newlyFixed := [] } := by
  have hlook : ∀ s : LineSearch.Reach Extended 1, s.activeSet = .ofBounds .unbounded →
      LineSearch.Reach.look p direction s 0 = pure s := by
    intro s hs
    unfold LineSearch.Reach.look LineSearch.heading ActiveSet.ofBounds at *
    simp only [hs, bound_unbounded, ite_self]
  unfold LineSearch.reach
  rw [List.foldlM_cons, hlook _ rfl, pure_bind, List.foldlM_nil]

def Scales (d₀ d m : ℝ) : Prop :=
  ∃ norm, LineSearch.scale (point d₀) free (.finite m) =
    { direction := point d, norm, maxStep := some (.finite (m / |d|)) }

theorem scales_self {d m : ℝ} (hd : d ≠ 0) (hm : |d| ≤ m) : Scales d d m := by
  have hpos := abs_pos.mpr hd
  refine ⟨.finite |d|, ?_⟩
  unfold LineSearch.scale
  rw [unmasked_free, normOver_point]
  dsimp only
  rw [if_neg (by rw [gt_iff_lt, finite_lt]; exact not_lt.mpr hm),
    if_pos (by rw [gt_iff_lt, zero_eq, finite_lt]; exact hpos), finite_div hpos.ne']

theorem scales_down {d m : ℝ} (hm : 0 < m) (hd : m < |d|) : Scales d (d * (m / |d|)) m := by
  have hpos : 0 < |d| := hm.trans hd
  have hnorm : |d * (m / |d|)| = m := by
    rw [abs_mul, abs_div, abs_abs, abs_of_pos hm, mul_div_cancel₀ _ hpos.ne']
  have hdirection : (Vector.ofFn fun i : Fin 1 => if free[i] then (point d)[i]
      else (point d)[i] * (.finite m / .finite |d|)) = point (d * (m / |d|)) := by
    unfold point
    rw [eq_ofReals_iff]
    intro i
    rw [getElem_vectorOfFn, getElem_replicate, if_neg Bool.false_ne_true, getElem_ofReals,
      finite_div hpos.ne', finite_mul]
  refine ⟨.finite |d|, ?_⟩
  unfold LineSearch.scale
  rw [unmasked_free, normOver_point, hnorm, div_self hm.ne']
  dsimp only
  rw [if_pos (by rw [gt_iff_lt, finite_lt]; exact hd), hdirection]
  rfl

theorem relativeChange_eq (d x : ℝ) :
    LineSearch.relativeChange (point d) (point x) [0] = .finite (|d| / max |x| 1) := by
  have hpos : 0 < max |x| 1 := lt_of_lt_of_le one_pos (le_max_right _ _)
  show Scalar.maximum 0 (Scalar.abs (point d)[(0 : Fin 1)] /
    Scalar.maximum (Scalar.abs (point x)[(0 : Fin 1)]) 1) = _
  rw [getElem_point, getElem_point, abs_finite, abs_finite, one_eq, maximum_finite, finite_div hpos.ne',
    zero_eq, maximum_finite, max_eq_right (div_nonneg (abs_nonneg d) hpos.le)]

noncomputable def rayIn (b : Bounds Extended 1) (reach : Option Extended) (blocking : Option (Fin 1))
    (problem : Problem Extended 1) (parameters : LineSearch.Parameters Extended) (x : ℝ) (f : Extended)
    (g d m tolerance : ℝ) : LineSearch.Ray Extended 1 :=
  { problem, parameters, origin := point x, value := f, direction := point d, fixed := free
    slope := .finite (g * d), minStep := .finite (tolerance / (|d| / max |x| 1)), reach, blocking
    maxStep := some (.finite (m / |d|)), activeSet := .ofBounds b, newlyFixed := [] }

noncomputable def ray (problem : Problem Extended 1) (parameters : LineSearch.Parameters Extended) (x : ℝ)
    (f : Extended) (g d m tolerance : ℝ) : LineSearch.Ray Extended 1 :=
  rayIn .unbounded none none problem parameters x f g d m tolerance

variable {problem : Problem Extended 1} {parameters : LineSearch.Parameters Extended} {f : Extended}
  {x g d₀ d m tolerance zero : ℝ}

noncomputable def heading (g d m : ℝ) : LineSearch.Heading Extended 1 :=
  { direction := point d, maxStep := some (.finite (m / |d|)), slope := .finite (g * d) }

theorem heading_leads {a : ActiveSet Extended 1} (ha : a.fixed = free)
    (hzero : parameters.precision.zero = .finite zero) (hpos : 0 < zero) (hscales : Scales d₀ d m)
    (hslope : g * d < -zero) (hchange : zero < |d| / max |x| 1) :
    (heading g d m).Leads parameters a (point x) (point g) (point d₀) (.finite m) := by
  have hfree : a.free = [0] := congrArg unmasked ha
  obtain ⟨norm, hscale⟩ := hscales
  constructor
  . rw [ha, hscale]
    rfl
  . rw [ha, hscale]
    rfl
  . rw [hfree]
    exact (dotOver_point g d).symm
  . rw [hzero]
    show ¬Extended.finite |g * d| ≤ .finite zero
    rw [finite_le, abs_of_neg (by linarith)]
    linarith
  . rw [hzero]
    show ¬Extended.finite zero < .finite (g * d)
    rw [finite_lt]
    linarith
  . have hrelative := relativeChange_eq d x
    rw [hfree, hzero]
    show ¬LineSearch.relativeChange (point d) (point x) [0] ≤ .finite zero
    rw [hrelative, finite_le]
    exact not_le.mpr hchange

section Rays

variable {b : Bounds Extended 1} {reach : Option Extended} {blocking : Option (Fin 1)}

theorem aim_in (hzero : parameters.precision.zero = .finite zero) (hpos : 0 < zero)
    (htolerance : parameters.displacementTolerance = .finite tolerance) (hscales : Scales d₀ d m)
    (hslope : g * d < -zero) (hchange : zero < |d| / max |x| 1)
    (hreach : (LineSearch.reach parameters.precision (point d) (point x) (.ofBounds b) [0]).result = .ok {
      step := reach, blocking, x := point x, activeSet := .ofBounds b, newlyFixed := [] })
    (hopen : reach.any (· ≤ parameters.precision.zero) = false) :
    (LineSearch.aim problem parameters (.ofBounds b) (point x) f (point g) (point d₀) (.finite m)).result =
      .ok (.inl (rayIn b reach blocking problem parameters x f g d m tolerance)) := by
  have hleads : (heading g d m).Leads parameters (.ofBounds b) (point x) (point g) (point d₀)
      (.finite m) := heading_leads rfl hzero hpos hscales hslope hchange
  have hminStep : parameters.displacementTolerance / LineSearch.relativeChange (point d) (point x) [0] =
      .finite (tolerance / (|d| / max |x| 1)) := by
    rw [htolerance, relativeChange_eq, finite_div (hpos.trans hchange).ne']
  rw [hleads.aim_result hreach]
  show ((heading g d m).ray problem parameters free (point x) f (parameters.displacementTolerance /
    LineSearch.relativeChange (point d) (point x) [0]) _).result = _
  rw [hminStep]
  unfold LineSearch.Heading.ray
  rw [result_note_bind]
  dsimp only
  rw [hopen, if_neg Bool.false_ne_true]
  rfl

theorem aim_eq (hzero : parameters.precision.zero = .finite zero) (hpos : 0 < zero)
    (htolerance : parameters.displacementTolerance = .finite tolerance) (hd : d ≠ 0) (hm : |d| ≤ m)
    (hslope : g * d < -zero) (hchange : zero < |d| / max |x| 1) :
    (LineSearch.aim problem parameters (.ofBounds .unbounded) (point x) f (point g) (point d)
      (.finite m)).result = .ok (.inl (ray problem parameters x f g d m tolerance)) :=
  aim_in hzero hpos htolerance (scales_self hd hm) hslope hchange (congrArg Logged.result (reach_eq _ _ _)) rfl

theorem clip_unbounded (i : Fin 1) (v : Extended) : (Bounds.unbounded : Bounds Extended 1).clip i v = v := by
  unfold Bounds.clip
  simp only [bound_unbounded]

theorem point_rayIn {t : ℝ} (hclip : b.clip 0 (.finite (x + t * d)) = .finite (x + t * d)) :
    (rayIn b reach blocking problem parameters x f g d m tolerance).point (.finite t) =
      point (x + t * d) := by
  unfold point
  rw [eq_ofReals_iff]
  intro i
  rw [LineSearch.Ray.point_of_free (getElem_replicate false i)]
  show b.clip i ((point x)[i] + .finite t * (point d)[i]) = _
  rw [getElem_point, getElem_point, finite_mul, finite_add, Subsingleton.elim i 0, hclip]

theorem point_ray (t : ℝ) : (ray problem parameters x f g d m tolerance).point (.finite t) =
    point (x + t * d) :=
  point_rayIn (clip_unbounded _ _)

theorem firstTrial_rayIn (hreach : ∀ r, reach = some r → ∃ t, 1 ≤ t ∧ r = .finite t) :
    (LineSearch.firstTrial (rayIn b reach blocking problem parameters x f g d m tolerance)).step =
      .finite 1 := by
  cases reach with
  | none => rfl
  | some r =>
    obtain ⟨t, ht, rfl⟩ := hreach r rfl
    show Scalar.pickMin (Extended.finite t) (.finite 1) = _
    rw [pickMin_finite, min_eq_right ht]

/-- The full step is taken if it decreases the objective and the slope has risen there. -/
theorem search_taken {v w : ℝ}
    (haim : (LineSearch.aim problem parameters (.ofBounds b) (point x) f (point g) (point d₀)
      (.finite m)).result = .ok (.inl (rayIn b reach blocking problem parameters x f g d m tolerance)))
    (hreach : ∀ r, reach = some r → ∃ t, 1 ≤ t ∧ r = .finite t)
    (hclip : b.clip 0 (.finite (x + d)) = .finite (x + d))
    (hv : problem.objective (point (x + d)) = .ok (.finite v))
    (hw : problem.gradient (point (x + d)) = .ok (point w))
    (hdecrease : .finite v ≤ f + parameters.sufficientDecrease * .finite 1 * .finite (g * d))
    (hflat : parameters.curvature * .finite (g * d) ≤ .finite (w * d)) (fuel : Nat) :
    (LineSearch.search (fuel + 1) problem parameters (.ofBounds b) (point x) f (point g) (point d₀)
      (.finite m)).result = ((rayIn b reach blocking problem parameters x f g d m tolerance).finish
        (.accepted (.finite 1) (.finite v))).result := by
  have hpoint : (rayIn b reach blocking problem parameters x f g d m tolerance).point (.finite 1) =
      point (x + d) := by
    have hone : x + 1 * d = x + d := by rw [one_mul]
    rw [point_rayIn (by rw [hone]; exact hclip), hone]
  have hstep : (LineSearch.firstTrial
      (rayIn b reach blocking problem parameters x f g d m tolerance)).step = .finite 1 :=
    firstTrial_rayIn hreach
  have hdecreases : (rayIn b reach blocking problem parameters x f g d m tolerance).Decreases (.finite 1)
      (.finite v) := by
    refine ⟨?_, hdecrease⟩
    unfold LineSearch.Ray.HasValue
    rw [hpoint]
    exact hv
  have hslope : (rayIn b reach blocking problem parameters x f g d m tolerance).HasSlope (.finite 1)
      (.finite (w * d)) := by
    refine ⟨point w, ?_, (dotOver_point w d).symm⟩
    rw [hpoint]
    exact hw
  unfold LineSearch.search
  rw [Logged.result_bind_of_ok haim]
  dsimp only
  rw [LineSearch.Ray.search_first rfl (hstep ▸ hdecreases) (hstep ▸ hslope) hflat, hstep]

end Rays

theorem hasValue_ray {t : ℝ} {v : Extended} (hv : problem.objective (point (x + t * d)) = .ok v) :
    (ray problem parameters x f g d m tolerance).HasValue (.finite t) v := by
  unfold LineSearch.Ray.HasValue
  rw [point_ray]
  exact hv

theorem hasSlope_ray {t : ℝ} {w : Vector Extended 1} (hw : problem.gradient (point (x + t * d)) = .ok w) :
    (ray problem parameters x f g d m tolerance).HasSlope (.finite t) (dotOver [0] w (point d)) := by
  refine ⟨w, ?_, rfl⟩
  rw [point_ray]
  exact hw

noncomputable def above (l : ℝ) : Bounds Extended 1 :=
  { lower := #v[some (.finite l)], upper := Vector.replicate 1 none }

theorem clip_above {l v : ℝ} (hv : l ≤ v) : (above l).clip 0 (.finite v) = .finite v := by
  have hlower : (above l).bound 0 .lower = some (.finite l) := rfl
  have hupper : (above l).bound 0 .upper = none := rfl
  unfold Bounds.clip
  rw [hlower, hupper]
  exact if_neg (by rw [finite_lt]; exact not_lt.mpr hv)

section Above

variable {epsilon l : ℝ} (hepsilon : parameters.precision.epsilon = .finite epsilon)
  (hzero : parameters.precision.zero = .finite zero)

include hepsilon in
theorem heading_down (hd : d < -epsilon) : LineSearch.heading (ActiveSet.ofBounds (above l)).working
    parameters.precision.epsilon (point d)[(0 : Fin 1)] 0 = some (.lower, .finite l) := by
  have hbound : (ActiveSet.ofBounds (above l)).working.bound 0 .lower = some (.finite l) := rfl
  unfold LineSearch.heading
  rw [getElem_point, hepsilon, finite_neg, if_pos (finite_lt.mpr hd), hbound]

theorem ratio_eq (hne : d ≠ 0) :
    (Extended.finite l - (point x)[(0 : Fin 1)]) / (point d)[(0 : Fin 1)] = .finite ((l - x) / d) := by
  rw [getElem_point, getElem_point, finite_sub, finite_div hne]

include hepsilon hzero

theorem reach_above (hd : d < -epsilon) (hne : d ≠ 0) (hclose : (l - x) / d ≤ zero) :
    (LineSearch.reach parameters.precision (point d) (point x) (.ofBounds (above l)) [0]).result = .ok {
      step := some 0, blocking := none, x := point l
      activeSet := (ActiveSet.ofBounds (above l)).fix 0 .lower, newlyFixed := [0] } := by
  have hset : (point x).set 0 (Extended.finite l) (0 : Fin 1).isLt = point l := by
    apply vector_ext
    intro i
    rw [Subsingleton.elim i 0, getElem_point]
    rfl
  unfold LineSearch.reach
  simp only [List.foldlM_cons, List.foldlM_nil, bind_pure]
  unfold LineSearch.Reach.look
  dsimp only
  rw [heading_down hepsilon hd]
  dsimp only
  rw [ratio_eq hne, hzero, if_pos (finite_le.mpr hclose), result_note_bind]
  show Except.ok (LineSearch.Reach.mk _ _ ((point x).set 0 (Extended.finite l) (0 : Fin 1).isLt) _ _) = _
  rw [hset]
  rfl

theorem reach_down (hd : d < -epsilon) (hne : d ≠ 0) (hfar : zero < (l - x) / d) :
    (LineSearch.reach parameters.precision (point d) (point x) (.ofBounds (above l)) [0]).result = .ok {
      step := some (.finite ((l - x) / d)), blocking := some 0, x := point x
      activeSet := .ofBounds (above l), newlyFixed := [] } := by
  have hbelow : LineSearch.below (Extended.finite ((l - x) / d)) none = true := rfl
  unfold LineSearch.reach
  simp only [List.foldlM_cons, List.foldlM_nil, bind_pure]
  unfold LineSearch.Reach.look
  dsimp only
  rw [heading_down hepsilon hd]
  dsimp only
  rw [ratio_eq hne, hzero, if_neg (by rw [finite_le]; exact not_le.mpr hfar), if_pos hbelow]
  rfl

omit hzero in
theorem reach_up (hd : 0 < d) (hpos : 0 ≤ epsilon) :
    LineSearch.reach parameters.precision (point d) (point x) (.ofBounds (above l)) [0] = pure {
      step := none, blocking := none, x := point x, activeSet := .ofBounds (above l)
      newlyFixed := [] } := by
  have hupper : (ActiveSet.ofBounds (above l)).working.bound 0 .upper = none := rfl
  have hheading : LineSearch.heading (ActiveSet.ofBounds (above l)).working
      parameters.precision.epsilon (point d)[(0 : Fin 1)] 0 = none := by
    unfold LineSearch.heading
    rw [getElem_point, hepsilon, finite_neg, if_neg (by rw [finite_lt]; linarith), hupper, ite_self]
  unfold LineSearch.reach
  simp only [List.foldlM_cons, List.foldlM_nil, bind_pure]
  unfold LineSearch.Reach.look
  dsimp only
  rw [hheading]

end Above

section Finish

variable {reach : Option Extended} {l y v tolerance : ℝ}

noncomputable def stepped (b : Bounds Extended 1) (y v g d : ℝ) : SearchResult Extended 1 :=
  { x := point y, value := .finite v, step := .finite 1, slope := .finite (g * d), status := .accepted
    newlyFixed := [], direction := point d, activeSet := .ofBounds b }

theorem finish_stepped {b : Bounds Extended 1} {blocking : Option (Fin 1)}
    (hopen : blocking = none ∨ LineSearch.below (.finite 1) reach = true)
    (hclip : b.clip 0 (.finite (x + d)) = .finite (x + d)) (hy : x + d = y) :
    ((rayIn b reach blocking problem parameters x f g d m tolerance).finish
      (.accepted (.finite 1) (.finite v))).result = .ok (stepped b y v g d) := by
  have hone : x + 1 * d = x + d := by rw [one_mul]
  have hpoint : (rayIn b reach blocking problem parameters x f g d m tolerance).point (.finite 1) =
      point y := by
    rw [point_rayIn (by rw [hone]; exact hclip), hone, hy]
  rw [LineSearch.Ray.finish_unblocked hopen, hpoint]
  rfl

noncomputable def stopped (l v g d : ℝ) : SearchResult Extended 1 :=
  { stepped (above l) l v g d with
    newlyFixed := [0], activeSet := (ActiveSet.ofBounds (above l)).fix 0 .lower }

theorem finish_stopped (hd : d < 0) (hl : x + d = l) :
    ((rayIn (above l) (some (.finite 1)) (some 0) problem parameters x f g d m tolerance).finish
      (.accepted (.finite 1) (.finite v))).result = .ok (stopped l v g d) := by
  have hone : x + 1 * d = l := by rw [one_mul, hl]
  have hpoint : (rayIn (above l) (some (.finite 1)) (some 0) problem parameters x f g d m
      tolerance).point (.finite 1) = point l := by
    rw [point_rayIn (by rw [hone]; exact clip_above le_rfl), hone]
  have hbelow : LineSearch.below (.finite 1) (some (Extended.finite 1)) = false := by
    show decide (Extended.finite 1 < .finite 1) = false
    rw [decide_eq_false_iff_not, finite_lt]
    exact lt_irrefl _
  have hside : (if (point d)[(0 : Fin 1)] > 0 then Side.upper else .lower) = .lower := by
    rw [getElem_point, if_neg]
    rw [gt_iff_lt, zero_eq, finite_lt]
    exact hd.not_gt
  have hset : (point l).set 0 (Extended.finite l) (0 : Fin 1).isLt = point l := by
    apply vector_ext
    intro i
    rw [Subsingleton.elim i 0, getElem_point]
    rfl
  unfold LineSearch.Ray.finish LineSearch.Ray.fixBlocking
  dsimp only
  rw [hpoint]
  unfold rayIn
  dsimp only
  rw [hbelow, if_neg Bool.false_ne_true, hside, Logged.result_bind, result_note_bind]
  show Except.ok { stopped l v g d with
    x := (point l).set 0 (Extended.finite l) (0 : Fin 1).isLt } = _
  rw [hset]
  rfl

end Finish

noncomputable def snapped (f : Extended) (g d l : ℝ) : SearchResult Extended 1 :=
  { x := point l, value := f, step := 0, slope := .finite (g * d), status := .zeroStep, newlyFixed := [0]
    direction := point d, activeSet := (ActiveSet.ofBounds (above l)).fix 0 .lower }

theorem search_snaps {epsilon l : ℝ} (hepsilon : parameters.precision.epsilon = .finite epsilon)
    (hzero : parameters.precision.zero = .finite zero) (hpos : 0 < zero) (hd : d < -epsilon) (hne : d ≠ 0)
    (hm : |d| ≤ m) (hslope : g * d < -zero) (hchange : zero < |d| / max |x| 1)
    (hclose : (l - x) / d ≤ zero) (fuel : Nat) :
    (LineSearch.search fuel problem parameters (.ofBounds (above l)) (point x) f (point g) (point d)
      (.finite m)).result = .ok (snapped f g d l) := by
  have hleads : (heading g d m).Leads parameters (.ofBounds (above l)) (point x) (point g) (point d)
      (.finite m) := heading_leads rfl hzero hpos (scales_self hne hm) hslope hchange
  have hany : (some (0 : Extended)).any (· ≤ parameters.precision.zero) = true := by
    rw [hzero]
    show decide (Extended.finite 0 ≤ .finite zero) = true
    rw [decide_eq_true_eq, finite_le]
    exact hpos.le
  exact hleads.search_result (reach_above hepsilon hzero hd hne hclose) hany fuel problem f

end Line

end BoxDescent

import BoxDescent.Proofs.LineSearch.Feasible
import BoxDescent.Proofs.Exact.Vector

/-!
This module contains the direction and the points of a line search in exact arithmetic: a finite direction
is scaled to a finite one (`scale_cases`), and the points along it are finite.
-/

namespace BoxDescent

open Extended

namespace LineSearch

variable {n : Nat}

section Clip

variable {b : Bounds Extended n}

theorem clip_finite (hb : b.AllFinite) (i : Fin n) (x : ℝ) :
    ∃ r, b.clip i (.finite x) = .finite r := by
  have hraised : ∃ r, Bounds.raised (b.bound i .lower) (.finite x) = .finite r := by
    unfold Bounds.raised
    split
    . next l hl =>
      obtain ⟨m, rfl⟩ := isFinite_iff.mp (hb i .lower l hl)
      split
      . exact ⟨m, rfl⟩
      . exact ⟨x, rfl⟩
    . exact ⟨x, rfl⟩
  obtain ⟨y, hy⟩ := hraised
  rw [Bounds.clip_eq, hy]
  unfold Bounds.lowered
  split
  . next u hu =>
    obtain ⟨m, rfl⟩ := isFinite_iff.mp (hb i .upper u hu)
    split
    . exact ⟨m, rfl⟩
    . exact ⟨y, rfl⟩
  . exact ⟨y, rfl⟩

theorem allFinite_working {a : ActiveSet Extended n} {held : List (Fin n)} {x : Vector Extended n}
    (ha : a.Holds b held x) (hb : b.AllFinite) : a.working.AllFinite := by
  intro i side v hv
  cases hi : a.fixed[i] with
  | false =>
    rw [ha.free i hi] at hv
    exact hb i side v hv
  | true =>
    obtain ⟨s, hs⟩ := ha.sits i hi
    cases Side.eq_or_eq_opposite s side with
    | inl hside =>
      rw [hside, hs.removed] at hv
      cases hv
    | inr hside =>
      rw [hside, hs.opposite] at hv
      exact hb i _ v hv

theorem point_finite {r : Ray Extended n} {x q : Fin n → ℝ} (hx : r.origin = ofReals x)
    (hq : r.direction = ofReals q) (hw : r.activeSet.working.AllFinite) (t : ℝ) :
    ∃ y, r.point (.finite t) = ofReals y := by
  apply exists_ofReals
  intro i
  cases hi : r.fixed[i] with
  | true =>
    rw [Ray.point_of_fixed hi, hx, getElem_ofReals]
    exact ⟨_, rfl⟩
  | false =>
    rw [Ray.point_of_free hi, hx, hq, getElem_ofReals, getElem_ofReals, finite_mul, finite_add]
    exact clip_finite hw i _

end Clip

section Scale

variable {fixed : Vector Bool n} {maxNorm : Extended}

/-- The largest allowed norm is a number that is not negative, or there is no limit. -/
def IsLimit (m : Extended) : Prop :=
  m ≠ .negInf ∧ ∀ r, m = .finite r → 0 ≤ r

theorem isLimit_finite {m : ℝ} (hm : 0 ≤ m) : IsLimit (.finite m) := by
  refine ⟨nofun, ?_⟩
  intro r hr
  rw [finite_inj] at hr
  rw [← hr]
  exact hm

theorem div_ne_negInf {m : Extended} {d : ℝ} (hd : 0 < d) (hm : m ≠ .negInf) :
    m / .finite d ≠ .negInf := by
  cases m with
  | finite m =>
    rw [finite_div hd.ne']
    nofun
  | posInf =>
    have hinf : Extended.posInf / .finite d = .posInf := if_neg hd.not_gt
    rw [hinf]
    nofun
  | negInf => exact absurd rfl hm
  | nan =>
    rw [nan_div]
    nofun

noncomputable def freeNorm (fixed : Vector Bool n) (p : Fin n → ℝ) : ℝ :=
  Real.sqrt (∑ i ∈ freeSet fixed, p i * p i)

theorem scale_cases (fixed : Vector Bool n) (p : Fin n → ℝ) (hm : IsLimit maxNorm) :
    (∃ m, maxNorm = .finite m ∧ 0 ≤ m ∧ m < freeNorm fixed p ∧
      (scale (ofReals p) fixed maxNorm).direction =
        ofReals (fun i => if fixed[i] then p i else p i * (m / freeNorm fixed p)) ∧
      (scale (ofReals p) fixed maxNorm).maxStep = some 1) ∨
    (scale (ofReals p) fixed maxNorm).direction = ofReals p ∧
      (¬Extended.finite (freeNorm fixed p) > maxNorm ∧ 0 < freeNorm fixed p ∧
        (scale (ofReals p) fixed maxNorm).maxStep = some (maxNorm / .finite (freeNorm fixed p)) ∨
      freeNorm fixed p = 0 ∧ (scale (ofReals p) fixed maxNorm).maxStep = none) := by
  have hnorm : normOver (unmasked fixed) (ofReals p) = .finite (freeNorm fixed p) := by
    rw [normOver_ofReals, sum_unmasked]
    rfl
  have hnonneg : 0 ≤ freeNorm fixed p := Real.sqrt_nonneg _
  unfold scale
  dsimp only
  rw [hnorm]
  generalize freeNorm fixed p = norm at hnonneg ⊢
  split
  . next hgt =>
    obtain ⟨hne, hlimit⟩ := hm
    have hfin : ∃ m, maxNorm = .finite m := by
      cases maxNorm with
      | finite m => exact ⟨m, rfl⟩
      | posInf => exact absurd trivial hgt.2
      | negInf => exact absurd rfl hne
      | nan => exact hgt.1.elim
    obtain ⟨m, rfl⟩ := hfin
    rw [gt_iff_lt, finite_lt] at hgt
    have hm := hlimit m rfl
    refine Or.inl ⟨m, rfl, hm, hgt, ?_, rfl⟩
    rw [eq_ofReals_iff]
    intro i
    rw [getElem_vectorOfFn, getElem_ofReals, finite_div (lt_of_le_of_lt hm hgt).ne', finite_mul]
    split
    . rfl
    . rfl
  . next hle =>
    split
    . next hpos => exact Or.inr ⟨rfl, Or.inl ⟨hle, finite_lt.mp hpos, rfl⟩⟩
    . next hzero =>
      rw [gt_iff_lt, zero_eq, finite_lt, not_lt] at hzero
      exact Or.inr ⟨rfl, Or.inr ⟨le_antisymm hzero hnonneg, rfl⟩⟩

theorem scale_finite (fixed : Vector Bool n) (p : Fin n → ℝ) (hm : IsLimit maxNorm) : ∃ q c, 0 ≤ c ∧
    (scale (ofReals p) fixed maxNorm).direction = ofReals q ∧
    ∀ i : Fin n, fixed[i] = false → q i = p i * c := by
  obtain ⟨m, _, hm, hlt, hdirection, _⟩ | ⟨hdirection, _⟩ := scale_cases fixed p hm
  . refine ⟨_, m / freeNorm fixed p, div_nonneg hm (hm.trans hlt.le), hdirection, ?_⟩
    intro i hi
    rw [if_neg (Bool.eq_false_iff.mp hi)]
  . exact ⟨p, 1, zero_le_one, hdirection, fun i _ => (mul_one _).symm⟩

theorem scale_maxStep (fixed : Vector Bool n) (p : Fin n → ℝ) (hm : IsLimit maxNorm) {v : Extended}
    (hv : (scale (ofReals p) fixed maxNorm).maxStep = some v) :
    v ≠ .negInf ∧ ∀ m, v = .finite m → 1 ≤ m := by
  obtain ⟨_, _, _, _, _, hmax⟩ | ⟨_, ⟨hle, hpos, hmax⟩ | ⟨_, hmax⟩⟩ := scale_cases fixed p hm
  . rw [hmax] at hv
    cases hv
    exact ⟨nofun, fun m hm => (finite_inj.mp hm).le⟩
  . rw [hmax] at hv
    cases hv
    refine ⟨div_ne_negInf hpos hm.1, ?_⟩
    intro k hk
    cases maxNorm with
    | finite m =>
      rw [finite_div hpos.ne', finite_inj] at hk
      rw [gt_iff_lt, finite_lt, not_lt] at hle
      rw [← hk, one_le_div hpos]
      exact hle
    | posInf =>
      have hinf : Extended.posInf / .finite (freeNorm fixed p) = .posInf := if_neg hpos.not_gt
      rw [hinf] at hk
      cases hk
    | negInf => exact absurd rfl hm.1
    | nan =>
      rw [nan_div] at hk
      cases hk
  . rw [hmax] at hv
    cases hv

theorem mul_freeNorm_le (fixed : Vector Bool n) (p : Fin n → ℝ) {m : ℝ} (hm : 0 ≤ m) {q : Fin n → ℝ}
    (hq : (scale (ofReals p) fixed (.finite m)).direction = ofReals q) {t : ℝ}
    (ht : ∀ k, (scale (ofReals p) fixed (.finite m)).maxStep = some (.finite k) → t ≤ k) :
    t * freeNorm fixed q ≤ m := by
  obtain ⟨k, hk, _, hlt, hdirection, hmax⟩ | ⟨hdirection, hrest⟩ :=
    scale_cases fixed p (isLimit_finite hm)
  . rw [finite_inj] at hk
    subst hk
    have hnorm := lt_of_le_of_lt hm hlt
    rw [hdirection, ofReals_inj] at hq
    have hscaled : freeNorm fixed q = m := by
      have hsum : ∑ i ∈ freeSet fixed, q i * q i =
          (m / freeNorm fixed p) * (m / freeNorm fixed p) * ∑ i ∈ freeSet fixed, p i * p i := by
        rw [Finset.mul_sum]
        apply Finset.sum_congr rfl
        intro i hi
        rw [← hq]
        dsimp only
        rw [if_neg (Bool.eq_false_iff.mp (mem_freeSet.mp hi))]
        ring
      have hratio : 0 ≤ m / freeNorm fixed p := div_nonneg hm hnorm.le
      unfold freeNorm at hsum hratio hnorm ⊢
      rw [hsum, Real.sqrt_mul (mul_nonneg hratio hratio), Real.sqrt_mul_self hratio,
        div_mul_cancel₀ _ hnorm.ne']
    rw [hscaled]
    exact mul_le_of_le_one_left hm (ht 1 hmax)
  . rw [hdirection, ofReals_inj] at hq
    subst hq
    obtain ⟨_, hnorm, hmax⟩ | ⟨hzero, _⟩ := hrest
    . rw [finite_div hnorm.ne'] at hmax
      exact (le_div_iff₀ hnorm).mp (ht _ hmax)
    . rw [hzero, mul_zero]
      exact hm

end Scale

section Change

theorem relativeChange_finite (p x : Fin n → ℝ) (is : List (Fin n)) :
    ∃ c, relativeChange (ofReals p) (ofReals x) is = .finite c := by
  have hentry : ∀ i : Fin n, Scalar.abs (ofReals p)[i] / Scalar.maximum (Scalar.abs (ofReals x)[i]) 1 =
      .finite (|p i| / max |x i| 1) := by
    intro i
    have hpos : max |x i| 1 ≠ 0 := (lt_of_lt_of_le one_pos (le_max_right _ _)).ne'
    rw [getElem_ofReals, getElem_ofReals, abs_finite, abs_finite, one_eq, maximum_finite,
      finite_div hpos]
  unfold relativeChange
  simp only [hentry]
  exact maximumOver_finite is fun i => |p i| / max |x i| 1

theorem relativeChange_cases (q : Fin n → ℝ) (x : Vector Extended n) (is : List (Fin n)) :
    relativeChange (ofReals q) x is = .nan ∨ ∃ c, relativeChange (ofReals q) x is = .finite c := by
  unfold relativeChange
  apply maximumOver_induction (P := fun v : Extended => v = .nan ∨ ∃ c, v = .finite c)
  . exact Or.inr ⟨0, rfl⟩
  . intro i _
    rw [getElem_ofReals, abs_finite]
    cases x[i] with
    | finite y =>
      have hpos : max |y| 1 ≠ 0 := (lt_of_lt_of_le one_pos (le_max_right _ _)).ne'
      rw [abs_finite, one_eq, maximum_finite, finite_div hpos]
      exact Or.inr ⟨_, rfl⟩
    | posInf =>
      have hmax : Scalar.maximum (Scalar.abs .posInf) 1 = Extended.posInf := if_pos (Or.inl trivial)
      rw [hmax]
      exact Or.inr ⟨0, rfl⟩
    | negInf =>
      have hmax : Scalar.maximum (Scalar.abs .negInf) 1 = Extended.posInf := if_pos (Or.inl trivial)
      rw [hmax]
      exact Or.inr ⟨0, rfl⟩
    | nan =>
      have hmax : Scalar.maximum (Scalar.abs .nan) 1 = Extended.nan := by
        have hundefined : Scalar.isUndefined Extended.nan = true := by
          unfold Scalar.isUndefined
          rw [decide_eq_false (p := Extended.nan ≤ Extended.nan) id]
          rfl
        exact if_pos (Or.inr hundefined)
      rw [hmax]
      exact Or.inl rfl

theorem div_not_nonpos {tolerance : Extended} (htolerance : ¬tolerance ≤ 0) {c : ℝ} (hc : 0 < c) :
    ¬tolerance / .finite c ≤ 0 ∧ (tolerance ≠ .nan → tolerance / .finite c ≠ .nan) := by
  cases tolerance with
  | finite t =>
    rw [zero_eq, finite_le, not_le] at htolerance
    rw [finite_div hc.ne', zero_eq, finite_le, not_le]
    exact ⟨div_pos htolerance hc, fun _ => nofun⟩
  | posInf =>
    have hinf : Extended.posInf / .finite c = .posInf := if_neg hc.not_gt
    rw [hinf]
    exact ⟨fun hle => hle.elim, fun _ => nofun⟩
  | negInf => exact absurd trivial htolerance
  | nan =>
    rw [nan_div]
    exact ⟨fun hle => hle.elim, fun h => absurd rfl h⟩

end Change

end LineSearch

end BoxDescent

import BoxDescent.Proofs.Exact.Cliff
import BoxDescent.Proofs.Exact.Verdict

/-!
This module contains what an accepted step guarantees in exact arithmetic (`search_accepted`): it is
feasible and not longer than allowed, the objective is lower than before, and unless both conditions of the
search hold there, no step that is longer by more than a negligible one would do.
-/

namespace BoxDescent

open Extended

variable {n : Nat}

namespace Bounds

theorem clip_within {b : Bounds Extended n} {i : Fin n} {x : ℝ}
    (hl : ∀ l, b.bound i .lower = some l → ¬Extended.finite x < l)
    (hu : ∀ u, b.bound i .upper = some u → ¬u < Extended.finite x) (y : ℝ) :
    ∃ z, b.clip i (.finite y) = .finite z ∧ |z - x| ≤ |y - x| := by
  have hraised : ∃ z, raised (b.bound i .lower) (.finite y) = .finite z ∧ |z - x| ≤ |y - x| := by
    unfold raised
    split
    . next l hbound =>
      have hxl := hl l hbound
      split
      . next hlt =>
        cases l with
        | finite l =>
          rw [finite_lt] at hlt hxl
          have hneg : l - x ≤ 0 := by linarith
          refine ⟨l, rfl, ?_⟩
          rw [abs_of_nonpos hneg, abs_of_neg (by linarith)]
          linarith
        | posInf => exact absurd ⟨trivial, id⟩ hxl
        | negInf => exact (Scalar.le_of_lt hlt).elim
        | nan => exact (Scalar.le_of_lt hlt).elim
      . exact ⟨y, rfl, le_refl _⟩
    . exact ⟨y, rfl, le_refl _⟩
  obtain ⟨z, hz, hle⟩ := hraised
  rw [clip_eq, hz]
  unfold lowered
  split
  . next u hbound =>
    have hxu := hu u hbound
    split
    . next hgt =>
      cases u with
      | finite u =>
        rw [gt_iff_lt, finite_lt] at hgt
        rw [finite_lt, not_lt] at hxu
        refine ⟨u, rfl, le_trans ?_ hle⟩
        rw [abs_of_nonneg (by linarith), abs_of_pos (by linarith)]
        linarith
      | posInf => exact (Scalar.le_of_lt hgt).elim
      | negInf => exact absurd ⟨trivial, id⟩ hxu
      | nan => exact (Scalar.le_of_lt hgt).elim
    . exact ⟨z, rfl, hle⟩
  . exact ⟨z, rfl, hle⟩

theorem clip_of_between {α : Type} [Scalar α] {b : Bounds α n} {i : Fin n} {x : α}
    (hl : ∀ l, b.bound i .lower = some l → ¬x < l) (hu : ∀ u, b.bound i .upper = some u → ¬u < x) :
    b.clip i x = x := by
  have hraised : raised (b.bound i .lower) x = x := by
    unfold raised
    split
    . next l hbound => rw [if_neg (hl l hbound)]
    . rfl
  rw [clip_eq, hraised]
  unfold lowered
  split
  . next u hbound => exact if_neg (hu u hbound)
  . rfl

end Bounds

namespace LineSearch

structure Ray.Fits (r : Ray Extended n) (p : Precision Extended) (x d : Fin n → ℝ) : Prop where
  origin : r.origin = ofReals x
  direction : r.direction = ofReals d
  lower : ∀ i : Fin n, r.fixed[i] = false → ∀ l, r.activeSet.working.bound i .lower = some l →
    ¬Extended.finite (x i) < l
  upper : ∀ i : Fin n, r.fixed[i] = false → ∀ u, r.activeSet.working.bound i .upper = some u →
    ¬u < Extended.finite (x i)
  epsilon : 0 < p.epsilon
  longest : IsLongest p r.direction r.origin r.activeSet.working r.free r.reach r.blocking

namespace Ray.Fits

variable {r : Ray Extended n} {p : Precision Extended} {x d : Fin n → ℝ}

theorem point_within (hr : r.Fits p x d) (t : ℝ) : ∃ y, r.point (.finite t) = ofReals y ∧
    ∀ i : Fin n, |y i - x i| ≤ if r.fixed[i] then 0 else |t * d i| := by
  have hentry : ∀ i : Fin n, ∃ z, (r.point (.finite t))[i] = .finite z ∧
      |z - x i| ≤ if r.fixed[i] then 0 else |t * d i| := by
    intro i
    cases hi : r.fixed[i] with
    | true =>
      rw [point_of_fixed hi, hr.origin, getElem_ofReals]
      refine ⟨x i, rfl, ?_⟩
      rw [sub_self, abs_zero, if_pos rfl]
    | false =>
      obtain ⟨z, hz, hle⟩ := Bounds.clip_within (hr.lower i hi) (hr.upper i hi) (x i + t * d i)
      rw [point_of_free hi, hr.origin, hr.direction, getElem_ofReals, getElem_ofReals, finite_mul,
        finite_add]
      rw [add_sub_cancel_left] at hle
      exact ⟨z, hz, hle⟩
  choose y hy hle using hentry
  exact ⟨y, eq_ofReals_iff.mpr hy, hle⟩

theorem eq_of_boundStep (hr : r.Fits p x d) {t : ℝ} {i : Fin n} (hi : r.fixed[i] = false)
    (hpos : 0 < t)
    (ht : boundStep? p r.direction r.origin r.activeSet.working i = some (.finite t)) :
    ∃ v, r.activeSet.working.bound i (towards r.direction[i]) = some v ∧
      (r.point (.finite t))[i] = v := by
  unfold boundStep? at ht
  rw [Option.map_eq_some_iff] at ht
  obtain ⟨⟨side, bound⟩, hheading, hratio⟩ := ht
  have htowards := towards_of_heading hr.epsilon hheading
  have hbound := bound_of_heading hheading
  have hside := direction_of_heading hheading
  dsimp only at hratio
  rw [hr.direction, hr.origin, getElem_ofReals, getElem_ofReals] at hratio
  have hne : d i ≠ 0 := by
    intro hzero
    apply ne_zero_of_heading hr.epsilon hheading
    rw [hr.direction, getElem_ofReals, hzero, zero_eq]
  -- The quotient is a number, so the bound is one.
  obtain ⟨_, hdifference⟩ := eq_finite_of_div hratio
  obtain ⟨b, rfl⟩ := eq_finite_of_sub hdifference
  rw [finite_sub, finite_div hne, finite_inj, div_eq_iff hne] at hratio
  have hb : x i + t * d i = b := by linarith
  refine ⟨.finite b, by rw [htowards]; exact hbound, ?_⟩
  rw [point_of_free hi, hr.origin, hr.direction, getElem_ofReals, getElem_ofReals, finite_mul, finite_add,
    hb]
  rw [hr.direction, getElem_ofReals] at hside
  have hpositive := hr.epsilon
  cases hside with
  | inl hlower =>
    obtain ⟨rfl, hneg⟩ := hlower
    have hd : d i < 0 :=
      finite_lt.mp (Scalar.lt_of_lt_of_le hneg (Scalar.Lawful.neg_nonpos (Scalar.le_of_lt hpositive)))
    have hbx : Extended.finite b < .finite (x i) := by
      have := mul_neg_of_pos_of_neg hpos hd
      rw [finite_lt]
      linarith
    apply Bounds.clip_of_between
    . intro l hl
      rw [hbound, Option.some.injEq] at hl
      rw [← hl]
      exact Scalar.lt_irrefl
    . intro u hu hlt
      exact hr.upper i hi u hu (Scalar.lt_of_lt_of_le hlt (Scalar.le_of_lt hbx))
  | inr hupper =>
    obtain ⟨rfl, hgt⟩ := hupper
    have hd : 0 < d i := finite_lt.mp (Scalar.lt_of_lt_of_le hpositive (Scalar.le_of_lt hgt))
    have hxb : Extended.finite (x i) < .finite b := by
      have := mul_pos hpos hd
      rw [finite_lt]
      linarith
    apply Bounds.clip_of_between
    . intro l hl hlt
      exact hr.lower i hi l hl (Scalar.lt_of_lt_of_le hxb (Scalar.le_of_lt hlt))
    . intro u hu
      rw [hbound, Option.some.injEq] at hu
      rw [← hu]
      exact Scalar.lt_irrefl

theorem fixBlocking_eq (hr : r.Fits p x d) {t : ℝ} (hrange : r.InRange t)
    {s : Vector Extended n × ActiveSet Extended n × List (Fin n)}
    (hs : (r.fixBlocking (.finite t) (r.point (.finite t))).result = .ok s) :
    s.1 = r.point (.finite t) := by
  unfold Ray.fixBlocking at hs
  split at hs
  . cases hs
    rfl
  . next i hblocking =>
    split at hs
    . cases hs
      rfl
    . next hbelow =>
      cases hreach : r.reach with
      | none =>
        rw [hr.longest.free hreach] at hblocking
        cases hblocking
      | some v =>
        obtain ⟨m, j, rfl, hpos, hj, hblocking', hstep⟩ := hr.longest.attained v hreach
        rw [hblocking, Option.some.injEq] at hblocking'
        subst hblocking'
        have hle := hrange.1 _ hreach
        rw [finite_le] at hle
        rw [hreach] at hbelow
        simp only [below, decide_eq_true_eq, finite_lt, not_lt] at hbelow
        have heq : t = m := le_antisymm hle hbelow
        subst heq
        obtain ⟨w, hw, hpoint⟩ := hr.eq_of_boundStep (mem_unmasked.mp hj) hpos hstep
        have hgetD : (r.activeSet.working.bound i
            (if r.direction[i] > 0 then Side.upper else Side.lower)).getD Scalar.undefined = w := by
          show (r.activeSet.working.bound i (towards r.direction[i])).getD Scalar.undefined = w
          rw [hw, Option.getD_some]
        dsimp only at hs
        rw [result_note_bind, hgetD] at hs
        cases hs
        apply vector_ext
        intro k
        rw [getElem_set]
        split
        . next hik =>
          subst hik
          exact hpoint.symm
        . rfl

end Ray.Fits

section Search

variable {problem : Problem Extended n} {parameters : Parameters Extended} {a : ActiveSet Extended n}
  {x p : Fin n → ℝ} {grad : Vector Extended n} {f maxNorm : Extended} {c₁ c₂ zero : ℝ}

theorem Ray.IsFrom.fits {r : Ray Extended n}
    (hr : r.IsFrom problem parameters a (ofReals x) f grad (ofReals p) maxNorm)
    (hp : parameters.ArePositive c₁ c₂ zero) (hepsilon : 0 < parameters.precision.epsilon)
    (hm : IsLimit maxNorm)
    (ha : ∀ i : Fin n, a.fixed[i] = false → ∀ side, a.working.bound i side = a.bounds.bound i side)
    (hx : a.bounds.Contains (ofReals x)) : ∃ d, r.Fits parameters.precision x d := by
  obtain ⟨d, _, _, hd, _⟩ := scale_finite a.fixed p hm
  obtain ⟨hlongest, hactiveSet, _⟩ := hr.isLongest hp.zero_eq hp.zero_pos
  have hfree : r.free = a.free := by
    unfold Ray.free ActiveSet.free
    rw [hr.fixed]
  refine ⟨d, hr.origin, hr.direction_eq.trans hd, ?_, ?_, hepsilon, ?_⟩
  . intro i hi l hl
    rw [hactiveSet, ha i (hr.fixed ▸ hi)] at hl
    rw [← getElem_ofReals x i]
    exact (hx i).1 l hl
  . intro i hi u hu
    rw [hactiveSet, ha i (hr.fixed ▸ hi)] at hu
    rw [← getElem_ofReals x i]
    exact (hx i).2 u hu
  . rw [hactiveSet, hfree, hr.origin]
    exact hlongest

theorem Ray.Fits.isRegular {r : Ray Extended n} {precision : Precision Extended} {d : Fin n → ℝ}
    (hr : r.Fits precision x d)
    (hobjective : ∀ y v, r.problem.objective (ofReals y) = .ok v → v = .posInf ∨ ∃ f, v = .finite f)
    (hgradient : ∀ y w, r.problem.gradient (ofReals y) = .ok w → ∃ g, w = ofReals g) :
    r.IsRegular := by
  apply Ray.isRegular _ ⟨d, hr.direction⟩ hobjective hgradient
  intro t
  obtain ⟨y, hy, _⟩ := hr.point_within t
  exact ⟨y, hy⟩

theorem Ray.Fits.norm_le {r : Ray Extended n} {precision : Precision Extended} {d y : Fin n → ℝ} {m t : ℝ}
    (hfits : r.Fits precision x d)
    (hr : r.IsFrom problem parameters a (ofReals x) f grad (ofReals p) (.finite m)) (hm : 0 ≤ m)
    (hpos : 0 < t) (hrange : r.InRange t)
    (hy : ∀ i : Fin n, |y i - x i| ≤ if r.fixed[i] then 0 else |t * d i|) :
    Real.sqrt (∑ i, (y i - x i) ^ 2) ≤ m := by
  have hentry : ∀ i : Fin n, (y i - x i) ^ 2 ≤ if a.fixed[i] = false then t * t * (d i * d i) else 0 := by
    intro i
    have hi := hy i
    rw [hr.fixed] at hi
    cases hfixed : a.fixed[i] with
    | true =>
      rw [hfixed, if_pos rfl] at hi
      rw [if_neg (by decide), abs_eq_zero.mp (le_antisymm hi (abs_nonneg _)), sq, mul_zero]
    | false =>
      rw [hfixed, if_neg (by decide)] at hi
      rw [if_pos rfl]
      calc (y i - x i) ^ 2 ≤ (t * d i) ^ 2 := sq_le_sq.mpr hi
        _ = t * t * (d i * d i) := by ring
  have hsum : ∑ i, (y i - x i) ^ 2 ≤ t * t * ∑ i ∈ freeSet a.fixed, d i * d i := by
    unfold freeSet
    rw [Finset.mul_sum, Finset.sum_filter]
    exact Finset.sum_le_sum fun i _ => hentry i
  have hdirection := hfits.direction
  rw [hr.direction_eq] at hdirection
  calc Real.sqrt (∑ i, (y i - x i) ^ 2)
      ≤ Real.sqrt (t * t * ∑ i ∈ freeSet a.fixed, d i * d i) := Real.sqrt_le_sqrt hsum
    _ = t * freeNorm a.fixed d := by
      rw [Real.sqrt_mul (mul_self_nonneg t), Real.sqrt_mul_self hpos.le]
      rfl
    _ ≤ m := by
      apply mul_freeNorm_le a.fixed p hm hdirection
      intro k hk
      rw [← hr.maxStep] at hk
      exact hrange.2 k hk

/-- An accepted step in exact arithmetic is positive and neither infeasible nor too long. It leads to the
point where the free variables are pulled back onto their bounds, and no variable moves further than
allowed. The objective there is finite and lower than before, and the step has a certificate. -/
theorem search_accepted
    (hobjective : ∀ y v, problem.objective (ofReals y) = .ok v → v = .posInf ∨ ∃ f, v = .finite f)
    (hgradient : ∀ y w, problem.gradient (ofReals y) = .ok w → ∃ g, w = ofReals g)
    (hp : parameters.ArePositive c₁ c₂ zero) (hepsilon : 0 < parameters.precision.epsilon)
    (htolerance : parameters.displacementTolerance ≠ .nan) (horder : c₁ < c₂)
    (ha : ∀ i : Fin n, a.fixed[i] = false → ∀ side, a.working.bound i side = a.bounds.bound i side)
    (hx : a.bounds.Contains (ofReals x)) {f₀ : ℝ} {g : Fin n → ℝ} {m : ℝ} (hm : 0 ≤ m) {fuel : Nat}
    {s : SearchResult Extended n}
    (hs : (search fuel problem parameters a (ofReals x) (.finite f₀) (ofReals g) (ofReals p)
      (.finite m)).result = .ok s) (haccepted : s.status = .accepted) :
    ∃ (r : Ray Extended n) (d y : Fin n → ℝ) (t f : ℝ),
      r.IsFrom problem parameters a (ofReals x) (.finite f₀) (ofReals g) (ofReals p) (.finite m) ∧
      IsLongest parameters.precision r.direction (ofReals x) a.working a.free r.reach r.blocking ∧
      r.direction = ofReals d ∧ s.step = .finite t ∧ 0 < t ∧ r.InRange t ∧
      s.x = ofReals y ∧ (∀ i : Fin n, .finite (y i) = if a.fixed[i] then Extended.finite (x i)
        else a.bounds.clip i (.finite (x i + t * d i))) ∧
      Real.sqrt (∑ i, (y i - x i) ^ 2) ≤ m ∧
      s.value = .finite f ∧ problem.objective s.x = .ok (.finite f) ∧ f < f₀ ∧
      r.Certificate t s.value := by
  have hlimit := isLimit_finite hm
  have hcertified := (search_certified problem.tolerates_true (fun _ _ => trivial) hp hlimit
    (finiteOn_ofReals a.fixed g) (Or.inr ⟨f₀, rfl⟩) trivial fuel).value s hs
  obtain hhalts | ⟨r, rate, t, hfrom, hr, ht⟩ := hcertified
  . exact absurd haccepted hhalts.status
  . obtain ⟨hlongest, hactiveSet, _⟩ := hfrom.isLongest hp.zero_eq hp.zero_pos
    obtain ⟨d, hfits⟩ := hfrom.fits hp hepsilon hlimit ha hx
    have hregular := hfits.isRegular (hfrom.problem_eq ▸ hobjective) (hfrom.problem_eq ▸ hgradient)
    obtain ⟨f, hvalue, hv, hlt, hcertificate⟩ :=
      hr.certificate_of_verdict hfrom.value hregular horder (hfrom.minStep_ne_nan hp hlimit htolerance)
        ht.pos ht.inRange ht.verdict
    obtain ⟨y, hy, hwithin⟩ := hfits.point_within t
    have hpoint : s.x = r.point (.finite t) := hfits.fixBlocking_eq ht.inRange ht.moved
    refine ⟨r, d, y, t, f, hfrom, hlongest, hfits.direction, ht.step, ht.pos, ht.inRange,
      hpoint.trans hy, ?_, hfits.norm_le hfrom hm ht.pos ht.inRange hwithin, hvalue, ?_, hlt, hcertificate⟩
    . intro i
      rw [← getElem_ofReals y i, ← hy]
      cases hi : a.fixed[i] with
      | true =>
        rw [Ray.point_of_fixed (hfrom.fixed ▸ hi), hfrom.origin, getElem_ofReals]
        rfl
      | false =>
        rw [Ray.point_of_free (hfrom.fixed ▸ hi), hfrom.origin, hfits.direction, getElem_ofReals,
          getElem_ofReals, finite_mul, finite_add, hactiveSet, Bounds.clip_eq, Bounds.clip_eq, ha i hi,
          ha i hi]
        rfl
    . unfold Ray.HasValue at hv
      rw [hfrom.problem_eq] at hv
      rw [hpoint, hv, hvalue]

end Search

theorem search_accepted_cliff :
    (search 2 (Cliff.problem (.finite (-5)) (.finite 1)) Cliff.parameters (.ofBounds .unbounded)
      (ofReals fun _ => 0) (.finite 0) (ofReals fun _ => 1) (ofReals fun _ => -1) (.finite 2)).result =
        .ok (Cliff.result (.finite (-5))) ∧
    ∃ (r : Ray Extended 1) (d y : Fin 1 → ℝ) (t f : ℝ),
      r.IsFrom (Cliff.problem (.finite (-5)) (.finite 1)) Cliff.parameters (.ofBounds .unbounded)
        (ofReals fun _ => 0) (.finite 0) (ofReals fun _ => 1) (ofReals fun _ => -1) (.finite 2) ∧
      IsLongest Cliff.parameters.precision r.direction (ofReals fun _ => 0)
        (ActiveSet.ofBounds (.unbounded : Bounds Extended 1)).working
        (ActiveSet.ofBounds (.unbounded : Bounds Extended 1)).free r.reach r.blocking ∧
      r.direction = ofReals d ∧ (Cliff.result (.finite (-5))).step = .finite t ∧ 0 < t ∧ r.InRange t ∧
      (Cliff.result (.finite (-5))).x = ofReals y ∧
      (∀ i : Fin 1, .finite (y i) =
        if (ActiveSet.ofBounds (.unbounded : Bounds Extended 1)).fixed[i] then Extended.finite 0
        else (ActiveSet.ofBounds (.unbounded : Bounds Extended 1)).bounds.clip i
          (.finite (0 + t * d i))) ∧
      Real.sqrt (∑ i, (y i - 0) ^ 2) ≤ 2 ∧
      (Cliff.result (.finite (-5))).value = .finite f ∧
      (Cliff.problem (.finite (-5)) (.finite 1)).objective (Cliff.result (.finite (-5))).x =
        .ok (.finite f) ∧ f < 0 ∧ r.Certificate t (Cliff.result (.finite (-5))).value := by
  have hbottom : Extended.finite (-5) ≤ .finite (-2 / 10000) := by
    rw [finite_le]
    norm_num
  have hepsilon : (0 : Extended) < Cliff.parameters.precision.epsilon := by
    show Extended.finite 0 < .finite (1 / 4503599627370496)
    rw [finite_lt]
    norm_num
  have hcontains : (ActiveSet.ofBounds (.unbounded : Bounds Extended 1)).bounds.Contains
      (ofReals fun _ => 0) := by
    intro i
    show (∀ l, (Bounds.unbounded : Bounds Extended 1).bound i .lower = some l → _) ∧
      ∀ u, (Bounds.unbounded : Bounds Extended 1).bound i .upper = some u → _
    rw [Line.bound_unbounded, Line.bound_unbounded]
    exact ⟨nofun, nofun⟩
  have hresult := Cliff.search_two hbottom 0
  exact ⟨hresult, search_accepted Cliff.objective_regular Cliff.gradient_regular
    Cliff.parameters_arePositive hepsilon nofun (by norm_num) (fun _ _ _ => rfl) hcontains two_pos.le hresult
    rfl⟩

end LineSearch

end BoxDescent

import BoxDescent.Proofs.Exact.Column

/-!
This module contains the decrease of the factors in exact arithmetic. With no floor it adds the multiple of
`v * vᵀ` exactly, if the result is positive definite (`decrease_exact`). With a positive floor it never
fails: every diagonal entry but the last one keeps that part of its old value at least, and the last one
can only become zero if the result is not positive definite (`decrease_floored`).
-/

namespace BoxDescent

open Extended

namespace Factor

variable {n : Nat} {l : Fin n → Fin n → ℝ} {d v ps : Fin n → ℝ} {coeff : ℝ} {fixed : Vector Bool n}

namespace Decrease

noncomputable def floored (zero x : ℝ) (last : Bool) : ℝ :=
  if !last ∧ x ≤ zero then zero else x

noncomputable def factor (zero sigma rest q : ℝ) (last : Bool) : ℝ :=
  (1 + sigma * q) * (1 + sigma * q) +
    floored zero (sigma * sigma * q * max (rest - q) 0) last

noncomputable def nextSigma (sigma q rho : ℝ) : ℝ :=
  sigma * ((1 + rho) / (rho * (1 + sigma * q + rho)))

theorem le_floored (zero x : ℝ) (last : Bool) : x ≤ floored zero x last := by
  unfold floored
  split
  . next h => exact h.2
  . exact le_refl x

theorem floored_zero {x : ℝ} (hx : 0 ≤ x) (last : Bool) : floored 0 x last = x := by
  unfold floored
  split
  . next h => exact le_antisymm hx h.2
  . rfl

theorem zero_le_floored (zero x : ℝ) : zero ≤ floored zero x false := by
  unfold floored
  split
  . exact le_refl zero
  . next h =>
    simp only [Bool.not_false, true_and, not_le] at h
    exact h.le

theorem le_factor (zero sigma rest q : ℝ) : zero ≤ factor zero sigma rest q false := by
  have hfloor := zero_le_floored zero (sigma * sigma * q * max (rest - q) 0)
  have hsquare := mul_self_nonneg (1 + sigma * q)
  unfold factor
  linarith

theorem term_nonneg (sigma rest : ℝ) {q : ℝ} (hq : 0 ≤ q) :
    0 ≤ sigma * sigma * q * max (rest - q) 0 :=
  mul_nonneg (mul_nonneg (mul_self_nonneg sigma) hq) (le_max_right _ _)

theorem factor_nonneg (zero sigma rest : ℝ) {q : ℝ} (hq : 0 ≤ q) (last : Bool) :
    0 ≤ factor zero sigma rest q last := by
  have hterm := (term_nonneg sigma rest hq).trans (le_floored zero _ last)
  have hsquare := mul_self_nonneg (1 + sigma * q)
  unfold factor
  linarith

structure Passes (zero sigma rest q : ℝ) : Prop where
  factor : 0 < factor zero sigma rest q false
  sum : 0 < 1 + sigma * q + Real.sqrt (Decrease.factor zero sigma rest q false)

theorem passes_of_floor {zero : ℝ} (hzero : 0 < zero) (sigma rest q : ℝ) :
    Passes zero sigma rest q := by
  have hfloor := hzero.trans_le (zero_le_floored zero (sigma * sigma * q * max (rest - q) 0))
  have hlt : (1 + sigma * q) * (1 + sigma * q) < factor zero sigma rest q false := by
    unfold factor
    linarith
  refine ⟨(mul_self_nonneg _).trans_lt hlt, ?_⟩
  have habs : |1 + sigma * q| < Real.sqrt (factor zero sigma rest q false) := by
    rw [← Real.sqrt_mul_self_eq_abs]
    exact Real.sqrt_lt_sqrt (mul_self_nonneg _) hlt
  have := neg_abs_le (1 + sigma * q)
  linarith

def isLast (j : Fin n) : Bool :=
  -- This is a position among all variables, whether they are fixed or not.
  decide (j.val + 1 = n)

theorem step_eq (ps : Fin n → ℝ) (fixed : Vector Bool n) (zero : ℝ) {alpha sigma rest q : ℝ}
    {c : Extended} {j : Fin n} {s : Decrease.State Extended n} (halpha : s.alpha = .finite alpha)
    (hsigma : s.sigma = .finite sigma) (hrest : s.rest = .finite rest) (hd : 0 < d j)
    (hq : ps j * ps j / d j = q) :
    Decrease.step (ofReals l d) fixed (.finite zero) c (BoxDescent.ofReals ps) s j =
      if !isLast j ∧ !Scalar.isFinite (Extended.finite sigma *
          (.finite (1 + Real.sqrt (factor zero sigma rest q (isLast j))) /
            .finite (Real.sqrt (factor zero sigma rest q (isLast j)) *
              (1 + sigma * q + Real.sqrt (factor zero sigma rest q (isLast j)))))) then
        .error (.breakdown (.decrease .scalar j
          [("rho", .finite (Real.sqrt (factor zero sigma rest q (isLast j)))),
            ("theta", .finite (1 + sigma * q)), ("P", .finite (ps j)), ("p", .finite q),
            ("d", .finite (d j)), ("t", .finite (max (rest - q) 0)), ("sigma_old", .finite sigma)]))
      else
        .ok
          { alpha := .finite alpha / .finite (factor zero sigma rest q (isLast j))
            sigma := .finite sigma *
              (.finite (1 + Real.sqrt (factor zero sigma rest q (isLast j))) /
                .finite (Real.sqrt (factor zero sigma rest q (isLast j)) *
                  (1 + sigma * q + Real.sqrt (factor zero sigma rest q (isLast j)))))
            rest := .finite (max (rest - q) 0)
            reduced := (ofReals l d).reduce fixed s.reduced j (.finite (ps j))
            out := (ofReals l d).writeColumn fixed s.out j
              (.finite (factor zero sigma rest q (isLast j) * d j))
              (.finite (alpha * ps j) / .finite (factor zero sigma rest q (isLast j) * d j))
              ((ofReals l d).reduce fixed s.reduced j (.finite (ps j))) } := by
  have hqn : 0 ≤ q := by
    rw [← hq]
    exact div_nonneg (mul_self_nonneg _) hd.le
  have hdiag : (ofReals l d).diag[j] = .finite (d j) := getElem_ofReals d j
  have hlast : decide (j.val + 1 = n) = isLast j := rfl
  unfold Decrease.step
  simp only [hlast, hdiag, getElem_ofReals, halpha, hsigma, hrest, finite_mul, finite_div hd.ne', hq,
    zero_eq, one_eq, finite_add, finite_sub, finite_lt, finite_le, ← apply_ite Extended.finite,
    isFinite_finite, Bool.not_true, Bool.false_eq_true, ↓reduceIte]
  have hmax : (if rest - q < 0 then 0 else rest - q) = max (rest - q) 0 := by
    split
    . next h => rw [max_eq_right h.le]
    . next h => rw [max_eq_left (not_lt.mp h)]
  have hfactor : (1 + sigma * q) * (1 + sigma * q) +
      (if (!isLast j) = true ∧ sigma * sigma * q * max (rest - q) 0 ≤ zero then zero
        else sigma * sigma * q * max (rest - q) 0) = factor zero sigma rest q (isLast j) := rfl
  rw [hmax, hfactor]
  simp only [sqrt_finite (factor_nonneg zero sigma rest hqn (isLast j)), finite_add, finite_mul]

theorem step_ofReals (ps : Fin n → ℝ) (fixed : Vector Bool n) (zero : ℝ) {alpha sigma rest : ℝ}
    {c : Extended} {j : Fin n} {s : Decrease.State Extended n} (halpha : s.alpha = .finite alpha)
    (hsigma : s.sigma = .finite sigma) (hrest : s.rest = .finite rest) (hd : 0 < d j)
    (hpasses : isLast j = false → Passes zero sigma rest (ps j * ps j / d j)) :
    ∃ t beta, Decrease.step (ofReals l d) fixed (.finite zero) c (BoxDescent.ofReals ps) s j = .ok t ∧
      t.rest = .finite (max (rest - ps j * ps j / d j) 0) ∧
      t.reduced = (ofReals l d).reduce fixed s.reduced j (.finite (ps j)) ∧
      t.out = (ofReals l d).writeColumn fixed s.out j
        (.finite (factor zero sigma rest (ps j * ps j / d j) (isLast j) * d j)) beta t.reduced ∧
      (isLast j = false →
        beta = .finite (alpha * ps j / (factor zero sigma rest (ps j * ps j / d j) false * d j)) ∧
        t.alpha = .finite (alpha / factor zero sigma rest (ps j * ps j / d j) false) ∧
        t.sigma = .finite (nextSigma sigma (ps j * ps j / d j)
          (Real.sqrt (factor zero sigma rest (ps j * ps j / d j) false)))) := by
  generalize hq : ps j * ps j / d j = q at hpasses ⊢
  rw [step_eq ps fixed zero halpha hsigma hrest hd hq]
  cases hl : isLast j with
  | true =>
    -- The scalars behind the last column may be anything, since no test looks at them.
    rw [if_neg]
    . exact ⟨_, _, rfl, rfl, rfl, rfl, nofun⟩
    . exact fun h => absurd h.1 (by decide)
  | false =>
    obtain ⟨hfac, hden⟩ := hpasses hl
    have hrho := Real.sqrt_pos.mpr hfac
    rw [finite_div (mul_pos hrho hden).ne', finite_div (mul_pos hfac hd).ne', finite_div hfac.ne',
      finite_mul, isFinite_finite, if_neg fun h => Bool.false_ne_true h.2]
    exact ⟨_, _, rfl, rfl, rfl, rfl, fun _ => ⟨rfl, rfl, rfl⟩⟩

theorem root_mul_eq_zero {zero sigma rest q : ℝ} (hq : 0 ≤ q)
    (h : ¬Passes zero sigma rest q) :
    Real.sqrt (factor zero sigma rest q false) *
      (1 + sigma * q + Real.sqrt (factor zero sigma rest q false)) = 0 := by
  cases (factor_nonneg zero sigma rest hq false).eq_or_lt with
  | inl hfactor => rw [← hfactor, Real.sqrt_zero, zero_mul]
  | inr hfactor =>
    -- The root is at least as large as `1 + sigma * q`, and so the sum is not negative either.
    have hsquare : (1 + sigma * q) * (1 + sigma * q) ≤ factor zero sigma rest q false := by
      have := (term_nonneg sigma rest hq).trans (le_floored zero _ false)
      unfold factor
      linarith
    have habs : |1 + sigma * q| ≤ Real.sqrt (factor zero sigma rest q false) := by
      rw [← Real.sqrt_mul_self_eq_abs]
      exact Real.sqrt_le_sqrt hsquare
    have hnonneg := neg_abs_le (1 + sigma * q)
    have hnonpos := not_lt.mp fun hpos => h ⟨hfactor, hpos⟩
    have hsum : 1 + sigma * q + Real.sqrt (factor zero sigma rest q false) = 0 := by
      linarith
    rw [hsum, mul_zero]

theorem step_breaks (ps : Fin n → ℝ) (fixed : Vector Bool n) (zero : ℝ) {alpha sigma rest : ℝ}
    {c : Extended} {j : Fin n} {s : Decrease.State Extended n} (halpha : s.alpha = .finite alpha)
    (hsigma : s.sigma = .finite sigma) (hrest : s.rest = .finite rest) (hd : 0 < d j)
    (hlast : isLast j = false) (hnot : ¬Passes zero sigma rest (ps j * ps j / d j)) :
    ∃ values, Decrease.step (ofReals l d) fixed (.finite zero) c (BoxDescent.ofReals ps) s j =
      .error (.breakdown (.decrease .scalar j values)) := by
  have hq : 0 ≤ ps j * ps j / d j := div_nonneg (mul_self_nonneg _) hd.le
  have hinfinite : ∀ a b, Scalar.isFinite (Extended.finite a * infinity b) = false := by
    intro a b
    unfold infinity
    split
    . exact not_isFinite_infinity
    . split
      . exact not_isFinite_infinity
      . rfl
  rw [step_eq ps fixed zero halpha hsigma hrest hd rfl, hlast, root_mul_eq_zero hq hnot, finite_div_zero,
    hinfinite]
  exact ⟨_, rfl⟩

structure At (s : Decrease.State Extended n) (alpha sigma rest : ℝ) : Prop where
  alpha : s.alpha = .finite alpha
  sigma : s.sigma = .finite sigma
  rest : s.rest = .finite rest

theorem not_isLast_of_lt {i j : Fin n} (h : i < j) : isLast i = false := by
  rw [Fin.lt_def] at h
  unfold isLast
  rw [decide_eq_false_iff_not]
  omega

theorem not_last_of_mem {before after : List (Fin n)} {j : Fin n}
    (hsplit : unmasked fixed = before ++ j :: after) : ∀ i ∈ before, isLast i = false := by
  intro i hi
  exact not_isLast_of_lt (lt_of_mem_before hsplit hi)

theorem le_mass_of_split {before after : List (Fin n)} {j : Fin n}
    (hd : ∀ i : Fin n, fixed[i] = false → 0 < d i) (hsplit : unmasked fixed = before ++ j :: after) :
    ps j * ps j / d j ≤ mass d ps (unmasked fixed) - mass d ps before := by
  have hafter : ∀ i ∈ after, fixed[i] = false := by
    intro i hi
    rw [← mem_unmasked, hsplit]
    simp [hi]
  have hmass := mass_nonneg hd ps hafter
  rw [hsplit, ← List.concat_append, List.concat_eq_append, mass_append, mass_concat]
  linarith

section Exact

/-- The state of an exact sweep after the columns `done`: `u` is the square root of what the determinant
is still multiplied by. -/
structure Exact (l : Fin n → Fin n → ℝ) (d v ps : Fin n → ℝ) (coeff : ℝ) (fixed : Vector Bool n)
    (done : List (Fin n)) (s : Decrease.State Extended n) : Prop where
  scalars : (∀ i ∈ done, isLast i = false) → ∃ sigma u, 0 < u ∧
    sigma * (mass d ps (unmasked fixed) - mass d ps done) = u - 1 ∧
    coeff / ratio coeff d ps done = sigma * (1 + u) ∧
    Decrease.At s (coeff / ratio coeff d ps done) sigma
      (mass d ps (unmasked fixed) - mass d ps done)
  reduced : ∀ r : Fin n, fixed[r] = false → r ∉ done →
    s.reduced[r] = .finite (residual l v ps done r)
  out : Swept l d v ps coeff fixed done s.out

theorem factor_exact {alpha sigma rest q u tau : ℝ} {last : Bool} (hq : 0 ≤ q) (hrest : q ≤ rest)
    (hu : sigma * rest = u - 1) (halpha : alpha / tau = sigma * (1 + u)) (htau : tau ≠ 0) :
    factor 0 sigma rest q last = (tau + alpha * q) / tau := by
  unfold factor
  rw [floored_zero (term_nonneg sigma rest hq), max_eq_left (sub_nonneg.mpr hrest), add_div,
    div_self htau, mul_div_right_comm, halpha]
  linear_combination (sigma * q) * hu

theorem nextSigma_exact {sigma rest q u rho tau alpha : ℝ} (hu : sigma * rest = u - 1)
    (hrho : 0 < rho) (hden : 0 < 1 + sigma * q + rho) (hsquare : rho * rho = 1 + alpha / tau * q)
    (halpha : alpha / tau = sigma * (1 + u)) :
    nextSigma sigma q rho * (rest - q) = u / rho - 1 ∧
      alpha / tau / (rho * rho) = nextSigma sigma q rho * (1 + u / rho) := by
  unfold nextSigma
  rw [halpha] at hsquare ⊢
  constructor
  . field_simp
    linear_combination (1 + rho) * hu + hsquare
  . field_simp
    linear_combination (-sigma) * hsquare

theorem denominator_pos {sigma q u rho tau alpha : ℝ} (hu : 0 < u) (hrho : 0 < rho)
    (hsquare : rho * rho = 1 + alpha / tau * q) (halpha : alpha / tau = sigma * (1 + u)) :
    0 < 1 + sigma * q + rho := by
  -- Times `1 + u` it is a product of positive numbers.
  have hmul : (1 + u) * (1 + sigma * q + rho) = (1 + rho) * (rho + u) := by
    rw [halpha] at hsquare
    linear_combination -hsquare
  have hpos : 0 < (1 + u) * (1 + sigma * q + rho) := by
    rw [hmul]
    exact mul_pos (by linarith) (by linarith)
  exact (mul_pos_iff_of_pos_left (by linarith)).mp hpos

theorem Exact.step {c : Extended} {before after : List (Fin n)} {j : Fin n}
    {s : Decrease.State Extended n} (hl : IsUnitLower l)
    (hd : ∀ i : Fin n, fixed[i] = false → 0 < d i) (hps : IsReduced l v fixed ps)
    (hend : 0 < ratio coeff d ps (unmasked fixed))
    (hsplit : unmasked fixed = before ++ j :: after) (h : Exact l d v ps coeff fixed before s) :
    ∃ t, Decrease.step (ofReals l d) fixed (.finite 0) c (BoxDescent.ofReals ps) s j = .ok t ∧
      Exact l d v ps coeff fixed (before ++ [j]) t := by
  have hj := free_of_split hsplit
  have hdj := hd j hj
  have hbefore := ratio_pos_of_append hd hend before (j :: after) hsplit
  have hafter : 0 < ratio coeff d ps (before ++ [j]) :=
    ratio_pos_of_append hd hend _ after (by rw [hsplit]; simp)
  obtain ⟨sigma, u, hupos, hu, halpha, hat⟩ := h.scalars (not_last_of_mem hsplit)
  have hq : 0 ≤ ps j * ps j / d j := div_nonneg (mul_self_nonneg _) hdj.le
  have hrest : ps j * ps j / d j ≤ mass d ps (unmasked fixed) - mass d ps before :=
    le_mass_of_split hd hsplit
  have hratio := ratio_concat coeff d ps j before
  have hfactor : ∀ last, factor 0 sigma (mass d ps (unmasked fixed) - mass d ps before)
      (ps j * ps j / d j) last = ratio coeff d ps (before ++ [j]) / ratio coeff d ps before := by
    intro last
    rw [factor_exact hq hrest hu halpha hbefore.ne', hratio]
  -- `rho` is the root of what the column adds to the determinant.
  have hrho := Real.sqrt_pos.mpr (div_pos hafter hbefore)
  have hsquare : Real.sqrt (ratio coeff d ps (before ++ [j]) / ratio coeff d ps before) *
      Real.sqrt (ratio coeff d ps (before ++ [j]) / ratio coeff d ps before) =
      1 + coeff / ratio coeff d ps before * (ps j * ps j / d j) := by
    rw [Real.mul_self_sqrt (div_pos hafter hbefore).le, hratio]
    field_simp
  have hden := denominator_pos hupos hrho hsquare halpha
  obtain ⟨t, beta, hstep, htrest, htreduced, htout, hscalars⟩ := step_ofReals ps fixed 0 (l := l)
    (c := c) hat.alpha hat.sigma hat.rest hdj fun _ => by
      constructor
      . rw [hfactor]
        exact div_pos hafter hbefore
      . rw [hfactor]
        exact hden
  simp only [hfactor] at htout hscalars
  have hreduced : ∀ r : Fin n, fixed[r] = false → r ∉ before ++ [j] →
      t.reduced[r] = .finite (residual l v ps (before ++ [j]) r) := by
    intro r hr hdone
    rw [htreduced]
    exact reduce_ofReals hsplit h.reduced hr hdone
  refine ⟨t, hstep, ?_, hreduced, ?_⟩
  . intro hlast
    obtain ⟨_, htalpha, htsigma⟩ := hscalars (hlast j (by simp))
    obtain ⟨hu', halpha'⟩ := nextSigma_exact hu hrho hden hsquare halpha
    have hmass : mass d ps (unmasked fixed) - mass d ps (before ++ [j]) =
        mass d ps (unmasked fixed) - mass d ps before - ps j * ps j / d j := by
      rw [mass_concat]
      ring
    have hcoeff : coeff / ratio coeff d ps (before ++ [j]) = coeff / ratio coeff d ps before /
        (ratio coeff d ps (before ++ [j]) / ratio coeff d ps before) := by
      field_simp
    refine ⟨_, _, div_pos hupos hrho, ?_, ?_, ?_, htsigma, ?_⟩
    . rw [hmass]
      exact hu'
    . rw [hcoeff, ← halpha', Real.mul_self_sqrt (div_pos hafter hbefore).le]
    . rw [htalpha, hcoeff]
    . rw [htrest, hmass, max_eq_left (sub_nonneg.mpr hrest)]
  . have hdiag : ratio coeff d ps (before ++ [j]) / ratio coeff d ps before * d j =
        d j * ratio coeff d ps (before ++ [j]) / ratio coeff d ps before := by
      ring
    rw [htout, hdiag]
    apply h.out.column hl hd hps hend hsplit
    intro r hjr hr
    refine ⟨?_, hreduced r hr (not_mem_of_lt hsplit hjr)⟩
    rw [(hscalars (not_isLast_of_lt hjr)).1]
    congr 1
    field_simp

theorem sigma_start (hend : 0 ≤ ratio coeff d ps (unmasked fixed)) :
    coeff / (1 + Real.sqrt (ratio coeff d ps (unmasked fixed))) * mass d ps (unmasked fixed) =
      Real.sqrt (ratio coeff d ps (unmasked fixed)) - 1 := by
  have hsquare := Real.mul_self_sqrt hend
  have hroot := Real.sqrt_nonneg (ratio coeff d ps (unmasked fixed))
  have hratio : ratio coeff d ps (unmasked fixed) = 1 + coeff * mass d ps (unmasked fixed) := rfl
  rw [hratio] at hsquare hroot ⊢
  field_simp
  linear_combination -hsquare

theorem sqrt_ratio : (if Extended.finite (ratio coeff d ps (unmasked fixed)) < 0 then 0
      else Scalar.sqrt (Extended.finite (ratio coeff d ps (unmasked fixed)))) =
    .finite (Real.sqrt (ratio coeff d ps (unmasked fixed))) := by
  simp only [zero_eq, finite_lt]
  split
  . next h => rw [Real.sqrt_eq_zero_of_nonpos h.le]
  . next h => rw [sqrt_finite (not_lt.mp h)]

noncomputable def initial (d v ps : Fin n → ℝ) (coeff : ℝ) (fixed : Vector Bool n) :
    Decrease.State Extended n :=
  { alpha := .finite coeff
    sigma := .finite (coeff / (1 + Real.sqrt (ratio coeff d ps (unmasked fixed))))
    rest := .finite (mass d ps (unmasked fixed))
    reduced := Vector.ofFn fun i => if fixed[i] then 0 else (BoxDescent.ofReals v)[i]
    out := blank fixed }

theorem exact_initial (hend : 0 < ratio coeff d ps (unmasked fixed)) :
    Exact l d v ps coeff fixed [] (initial d v ps coeff fixed) where
  scalars := by
    intro _
    have hnil : ratio coeff d ps [] = 1 := by
      unfold ratio mass
      simp
    have hmassnil : mass d ps [] = 0 := rfl
    have hroot := Real.sqrt_pos.mpr hend
    rw [hnil, hmassnil, div_one, sub_zero]
    refine ⟨_, Real.sqrt (ratio coeff d ps (unmasked fixed)), hroot, ?_, ?_, rfl, rfl, rfl⟩
    . exact sigma_start hend.le
    . field_simp
  reduced := fun _ hr _ => reduced_start hr
  out := swept_blank

theorem decrease_eq {zero : Extended} (hd : ∀ i : Fin n, fixed[i] = false → 0 < d i)
    (hsolve : Triangle.lower.solve (Square.ofReals l) (BoxDescent.ofReals v) fixed =
      BoxDescent.ofReals ps) :
    (ofReals l d).decrease (BoxDescent.ofReals v) (.finite coeff) fixed zero =
      ((unmasked fixed).foldlM (Decrease.step (ofReals l d) fixed zero (.finite coeff)
        (BoxDescent.ofReals ps)) (initial d v ps coeff fixed)).map (·.out) := by
  have hlower : (ofReals l d).lower = Square.ofReals l := rfl
  have hdiag : (ofReals l d).diag = BoxDescent.ofReals d := rfl
  have hmass : sumOver (unmasked fixed) (fun i =>
      (BoxDescent.ofReals ps)[i] * (BoxDescent.ofReals ps)[i] / (BoxDescent.ofReals d)[i]) =
      .finite (mass d ps (unmasked fixed)) := by
    unfold mass
    rw [← sumOver_finite]
    apply sumOver_congr
    intro i hi
    rw [getElem_ofReals, getElem_ofReals, finite_mul, finite_div (hd i (mem_unmasked.mp hi)).ne']
  have hratio : (1 : Extended) + .finite coeff * .finite (mass d ps (unmasked fixed)) =
      .finite (ratio coeff d ps (unmasked fixed)) := rfl
  have hden : 1 + Real.sqrt (ratio coeff d ps (unmasked fixed)) ≠ 0 := by
    have := Real.sqrt_nonneg (ratio coeff d ps (unmasked fixed))
    linarith
  unfold decrease initial
  dsimp only
  rw [hlower, hdiag, hsolve, hmass, hratio, sqrt_ratio, one_eq, finite_add, finite_div hden]
  cases (unmasked fixed).foldlM (Decrease.step (ofReals l d) fixed zero (.finite coeff)
      (BoxDescent.ofReals ps)) _ with
  | error e => rfl
  | ok s => rfl

end Exact

section Floored

variable {zero : ℝ}

structure Floored (l : Fin n → Fin n → ℝ) (d v ps : Fin n → ℝ) (coeff : ℝ) (fixed : Vector Bool n)
    (zero : ℝ) (done : List (Fin n)) (s : Decrease.State Extended n) : Prop where
  scalars : (∀ i ∈ done, isLast i = false) → ∃ alpha sigma rest, Decrease.At s alpha sigma rest ∧
    (0 < ratio coeff d ps (unmasked fixed) →
      rest = mass d ps (unmasked fixed) - mass d ps done ∧ 0 < 1 + sigma * rest)
  reduced : ∀ r : Fin n, fixed[r] = false → r ∉ done →
    s.reduced[r] = .finite (residual l v ps done r)
  out : ∃ l' d', s.out = ofReals l' d' ∧ Written fixed done l' d' ∧ ∀ i ∈ done, 0 ≤ d' i ∧
    (isLast i = false → zero * d i ≤ d' i) ∧ (0 < ratio coeff d ps (unmasked fixed) → 0 < d' i)

theorem pivot_pos {sigma rest q : ℝ} (hrest : q ≤ rest) (hq : 0 ≤ q) (h : 0 < 1 + sigma * rest) :
    0 < 1 + sigma * q := by
  cases le_total 0 sigma with
  | inl hsigma =>
    have := mul_nonneg hsigma hq
    linarith
  | inr hsigma =>
    have := mul_le_mul_of_nonpos_left hrest hsigma
    linarith

theorem nextSigma_pos (hzero : 0 < zero) {sigma rest q : ℝ} (hrest : q ≤ rest) (hq : 0 ≤ q)
    (h : 0 < 1 + sigma * rest) : 0 < 1 +
      nextSigma sigma q (Real.sqrt (factor zero sigma rest q false)) * (rest - q) := by
  have hpivot := pivot_pos hrest hq h
  have hpos := (passes_of_floor hzero sigma rest q).factor
  have hsquare := Real.mul_self_sqrt hpos.le
  have hrho := Real.sqrt_pos.mpr hpos
  have hle : (1 + sigma * q) * (1 + sigma * q) + sigma * sigma * q * (rest - q) ≤
      factor zero sigma rest q false := by
    unfold factor
    rw [max_eq_left (sub_nonneg.mpr hrest)]
    have := le_floored zero (sigma * sigma * q * (rest - q)) false
    linarith
  generalize Real.sqrt (factor zero sigma rest q false) = rho at *
  have hden : 0 < rho * (1 + sigma * q + rho) := mul_pos hrho (by linarith)
  have heq : 1 + nextSigma sigma q rho * (rest - q) =
      (rho * (1 + sigma * q + rho) + sigma * (rest - q) * (1 + rho)) /
        (rho * (1 + sigma * q + rho)) := by
    unfold nextSigma
    field_simp
  rw [heq]
  apply div_pos _ hden
  have hmore : 0 ≤ rest - q := sub_nonneg.mpr hrest
  cases le_total 0 sigma with
  | inl hsigma =>
    have := mul_nonneg (mul_nonneg hsigma hmore) (by linarith : 0 ≤ 1 + rho)
    linarith
  | inr hsigma =>
    -- With `b = -sigma * (rest - q)` this is `b < rho²` and `b < 1 + sigma * q`, the latter times `rho`.
    have hb : 0 ≤ -(sigma * (rest - q)) := by
      rw [← neg_mul]
      exact mul_nonneg (neg_nonneg.mpr hsigma) hmore
    have hlt : 0 < 1 + sigma * q + sigma * (rest - q) := by
      linarith
    have hrhomul := mul_pos hrho hlt
    have hpivotmul := mul_pos hpivot hlt
    have hsq : (1 + sigma * q) * (1 + sigma * q) + sigma * sigma * q * (rest - q) =
        (1 + sigma * q) * (1 + sigma * q + sigma * (rest - q)) - sigma * (rest - q) := by
      ring
    rw [hsq, ← hsquare] at hle
    linarith

theorem Floored.step (hzero : 0 < zero) {c : Extended} {before after : List (Fin n)} {j : Fin n}
    {s : Decrease.State Extended n} (hd : ∀ i : Fin n, fixed[i] = false → 0 < d i)
    (hsplit : unmasked fixed = before ++ j :: after) (h : Floored l d v ps coeff fixed zero before s) :
    ∃ t, Decrease.step (ofReals l d) fixed (.finite zero) c (BoxDescent.ofReals ps) s j = .ok t ∧
      Floored l d v ps coeff fixed zero (before ++ [j]) t := by
  have hj := free_of_split hsplit
  have hdj := hd j hj
  obtain ⟨alpha, sigma, rest, hat, hdet⟩ := h.scalars (not_last_of_mem hsplit)
  have hq : 0 ≤ ps j * ps j / d j := div_nonneg (mul_self_nonneg _) hdj.le
  have hrest : ps j * ps j / d j ≤ mass d ps (unmasked fixed) - mass d ps before :=
    le_mass_of_split hd hsplit
  obtain ⟨t, beta, hstep, htrest, htreduced, htout, hscalars⟩ := step_ofReals ps fixed zero (l := l)
    (c := c) hat.alpha hat.sigma hat.rest hdj fun _ => passes_of_floor hzero sigma rest _
  have hreduced : ∀ r : Fin n, fixed[r] = false → r ∉ before ++ [j] →
      t.reduced[r] = .finite (residual l v ps (before ++ [j]) r) := by
    intro r hr hdone
    rw [htreduced]
    exact reduce_ofReals hsplit h.reduced hr hdone
  refine ⟨t, hstep, ?_, hreduced, ?_⟩
  . intro hlast
    obtain ⟨_, htalpha, htsigma⟩ := hscalars (hlast j (by simp))
    refine ⟨_, _, _, ⟨htalpha, htsigma, htrest⟩, ?_⟩
    intro hend
    -- As long as `rest` is the exact one it is not clamped.
    obtain ⟨hmass, hpos⟩ := hdet hend
    rw [← hmass] at hrest
    rw [max_eq_left (sub_nonneg.mpr hrest), mass_concat]
    refine ⟨?_, nextSigma_pos hzero hrest hq hpos⟩
    rw [hmass]
    ring
  . obtain ⟨l', d', hout, hwritten, hdiag⟩ := h.out
    rw [htout, hout]
    refine ⟨_, _, writeColumn_ofReals fun r hjr hr =>
      ⟨(hscalars (not_isLast_of_lt hjr)).1, hreduced r hr (not_mem_of_lt hsplit hjr)⟩,
      hwritten.column hj _ _ _, ?_⟩
    intro i hi
    by_cases hij : i = j
    . subst hij
      rw [Function.update_self]
      refine ⟨mul_nonneg (factor_nonneg zero sigma rest hq _) hdj.le, ?_, ?_⟩
      . intro hlast
        rw [hlast]
        exact mul_le_mul_of_nonneg_right (le_factor zero sigma rest _) hdj.le
      . intro hend
        apply mul_pos _ hdj
        obtain ⟨hmass, hpos⟩ := hdet hend
        rw [← hmass] at hrest
        have hpivot := pivot_pos hrest hq hpos
        have hterm := (term_nonneg sigma rest hq).trans (le_floored zero _ (isLast i))
        unfold factor
        have := mul_pos hpivot hpivot
        linarith
    . rw [Function.update_of_ne hij]
      rw [List.mem_append, List.mem_singleton] at hi
      exact hdiag i (hi.resolve_right hij)

end Floored

end Decrease

theorem decrease_exact (hl : IsUnitLower l) (hd : ∀ i : Fin n, fixed[i] = false → 0 < d i)
    (hps : IsReduced l v fixed ps) (hend : 0 < ratio coeff d ps (unmasked fixed))
    (hsolve : Triangle.lower.solve (Square.ofReals l) (BoxDescent.ofReals v) fixed =
      BoxDescent.ofReals ps) :
    ∃ l' d', (ofReals l d).decrease (BoxDescent.ofReals v) (.finite coeff) fixed (.finite 0) =
      .ok (ofReals l' d') ∧ Updated l d v coeff fixed l' d' := by
  obtain ⟨s, hfold, hs⟩ := foldlM_ok (f := Decrease.step (ofReals l d) fixed (.finite 0)
      (.finite coeff) (BoxDescent.ofReals ps)) (Decrease.Exact l d v ps coeff fixed)
    (unmasked fixed) [] (Decrease.initial d v ps coeff fixed) (Decrease.exact_initial hend)
    fun before j after s hsplit hs => hs.step hl hd hps hend hsplit
  rw [List.nil_append] at hs
  obtain ⟨l', d', hout, hupdated⟩ := hs.out.updated hps
  refine ⟨l', d', ?_, hupdated⟩
  rw [Decrease.decrease_eq hd hsolve, hfold, ← hout]
  rfl

theorem decrease_floored (coeff : ℝ) {zero : ℝ} (hzero : 0 < zero)
    (hd : ∀ i : Fin n, fixed[i] = false → 0 < d i)
    (hsolve : Triangle.lower.solve (Square.ofReals l) (BoxDescent.ofReals v) fixed =
      BoxDescent.ofReals ps) :
    ∃ l' d', (ofReals l d).decrease (BoxDescent.ofReals v) (.finite coeff) fixed (.finite zero) =
      .ok (ofReals l' d') ∧ Written fixed (unmasked fixed) l' d' ∧
      ∀ i : Fin n, fixed[i] = false → 0 ≤ d' i ∧ (Decrease.isLast i = false → zero * d i ≤ d' i) ∧
        (0 < ratio coeff d ps (unmasked fixed) → 0 < d' i) := by
  obtain ⟨s, hfold, hs⟩ := foldlM_ok (f := Decrease.step (ofReals l d) fixed (.finite zero)
      (.finite coeff) (BoxDescent.ofReals ps)) (Decrease.Floored l d v ps coeff fixed zero)
    (unmasked fixed) []
    (Decrease.initial d v ps coeff fixed)
    (by
      refine ⟨?_, fun r hr _ => reduced_start hr, _, _, blank_ofReals, written_blank, nofun⟩
      intro _
      refine ⟨_, _, _, ⟨rfl, rfl, rfl⟩, ?_⟩
      intro hend
      refine ⟨(sub_zero _).symm, ?_⟩
      rw [Decrease.sigma_start hend.le]
      have := Real.sqrt_pos.mpr hend
      linarith)
    fun before j after s hsplit hs => hs.step hzero hd hsplit
  rw [List.nil_append] at hs
  obtain ⟨l', d', hout, hwritten, hdiag⟩ := hs.out
  refine ⟨l', d', ?_, hwritten, ?_⟩
  . rw [Decrease.decrease_eq hd hsolve, hfold, ← hout]
    rfl
  . intro i hi
    exact hdiag i (mem_unmasked.mpr hi)

end Factor

end BoxDescent

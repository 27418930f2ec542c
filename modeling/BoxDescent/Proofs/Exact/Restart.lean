import BoxDescent.Input.Box
import BoxDescent.Proofs.Solver.Restart

/-!
This module contains why the solver accepts the point that it is started from again. In exact arithmetic a
variable on a bound moves by a positive distance of at most half the width of the box, so it does not reach
the other bound (`Bounds.nudgeInside_admits`).
-/

namespace BoxDescent

open Extended

section Sides

variable {α : Type} [Scalar α] {n : Nat}

def lifted (zero : α) (half l : Option α) (x : α) : α :=
  match l with
  | some l => if x ≤ l then l + inset zero l half else x
  | none => x

def dropped (zero : α) (half u : Option α) (x : α) : α :=
  match u with
  | some u => if x ≥ u then u - inset zero u half else x
  | none => x

theorem Bounds.nudgeInside_eq (b : Bounds α n) (zero : α) (i : Fin n) (x : α) :
    b.nudgeInside zero i x = dropped zero (halfWidth (b.bound i .lower) (b.bound i .upper))
      (b.bound i .upper) (lifted zero (halfWidth (b.bound i .lower) (b.bound i .upper))
        (b.bound i .lower) x) := rfl

end Sides

section Distance

theorem inset_finite {zero : ℝ} (hzero : 0 < zero) (bound : ℝ) (half : Option Extended)
    (hhalf : ∀ h, half = some h → ∃ w, 0 < w ∧ h = finite w) :
    ∃ d, inset (finite zero) (finite bound) half = finite d ∧ 0 < d ∧
      ∀ w, half = some (finite w) → d ≤ w := by
  have hdistance : 0 < zero * max |bound| 1 := mul_pos hzero (lt_max_of_lt_right one_pos)
  unfold inset
  rw [abs_finite, one_eq, maximum_finite, finite_mul]
  cases half with
  | none => exact ⟨_, rfl, hdistance, nofun⟩
  | some h =>
    obtain ⟨w, hw, rfl⟩ := hhalf h rfl
    refine ⟨min (zero * max |bound| 1) w, minimum_finite, lt_min hdistance hw, ?_⟩
    intro w' hw'
    rw [Option.some.injEq, finite_inj] at hw'
    rw [← hw']
    exact min_le_right _ _

theorem halfWidth_finite (l u : ℝ) :
    halfWidth (some (finite l)) (some (finite u)) = some (finite ((u - l) / 2)) := by
  show some ((0.5 : Extended) * (finite u - finite l)) = _
  rw [finite_sub, ofScientific_mul]
  ring

theorem halfWidth_none (l : Option Extended) : halfWidth l none = none := by
  cases l <;> rfl

end Distance

namespace Bounds

variable {n : Nat} {b : Bounds Extended n} {i : Fin n}

def Admits (b : Bounds Extended n) (i : Fin n) (v : Extended) : Prop :=
  (∀ l, b.bound i .lower = some l → l < v) ∧ ∀ u, b.bound i .upper = some u → v < u

theorem Admits.not_reached {v : Extended} (h : b.Admits i v) (side : Side) :
    b.reached i v side = false := by
  cases side with
  | lower =>
    cases hl : b.bound i .lower with
    | none => simp only [reached, hl]
    | some l =>
      rw [reached_lower hl, decide_eq_false_iff_not]
      exact Scalar.not_le_of_lt (h.1 l hl)
  | upper =>
    cases hu : b.bound i .upper with
    | none => simp only [reached, hu]
    | some u =>
      rw [reached_upper hu, decide_eq_false_iff_not]
      exact Scalar.not_le_of_lt (h.2 u hu)

theorem nudgeInside_of_admits {v : Extended} (h : b.Admits i v) (zero : Extended) :
    b.nudgeInside zero i v = v := by
  have hlifted : lifted zero (halfWidth (b.bound i .lower) (b.bound i .upper)) (b.bound i .lower) v = v := by
    cases hl : b.bound i .lower with
    | none => rfl
    | some l => exact if_neg (Scalar.not_le_of_lt (h.1 l hl))
  rw [nudgeInside_eq, hlifted]
  cases hu : b.bound i .upper with
  | none => rfl
  | some u => exact if_neg (Scalar.not_le_of_lt (h.2 u hu))

theorem nudgeInside_nan (zero : Extended) : b.nudgeInside zero i .nan = .nan := by
  -- An undefined value compares with no bound.
  have hlifted : lifted zero (halfWidth (b.bound i .lower) (b.bound i .upper)) (b.bound i .lower) .nan =
      .nan := by
    cases b.bound i .lower with
    | none => rfl
    | some l => exact if_neg not_nan_le
  rw [nudgeInside_eq, hlifted]
  cases b.bound i .upper with
  | none => rfl
  | some u => exact if_neg not_le_nan

theorem not_reached_nan (side : Side) : b.reached i .nan side = false := by
  cases side with
  | lower =>
    cases hl : b.bound i .lower with
    | none => simp only [reached, hl]
    | some l =>
      rw [reached_lower hl, decide_eq_false_iff_not]
      exact not_nan_le
  | upper =>
    cases hu : b.bound i .upper with
    | none => simp only [reached, hu]
    | some u =>
      rw [reached_upper hu, decide_eq_false_iff_not]
      exact not_le_nan

section Inside

variable {zero : ℝ} (hb : b.AllFinite) (hzero : 0 < zero)
include hb hzero

theorem inset_lower {l : Extended} (hl : b.bound i .lower = some l)
    (hsep : ∀ u, b.bound i .upper = some u → l < u) :
    ∃ r d, l = finite r ∧ 0 < d ∧
      inset (finite zero) l (halfWidth (b.bound i .lower) (b.bound i .upper)) = finite d ∧
      ∀ u, b.bound i .upper = some (finite u) → r + d < u := by
  obtain ⟨r, rfl⟩ := isFinite_iff.mp (hb i .lower l hl)
  cases hu : b.bound i .upper with
  | none =>
    rw [halfWidth_none]
    obtain ⟨d, hd, hpos, _⟩ := inset_finite hzero r none nofun
    exact ⟨r, d, rfl, hpos, hd, nofun⟩
  | some u =>
    obtain ⟨u, rfl⟩ := isFinite_iff.mp (hb i .upper u hu)
    have hlu := hsep _ hu
    rw [finite_lt] at hlu
    rw [hl, halfWidth_finite]
    obtain ⟨d, hd, hpos, hle⟩ := inset_finite hzero r (some (finite ((u - r) / 2)))
      fun h hh => ⟨(u - r) / 2, by linarith, (Option.some.inj hh).symm⟩
    have hhalf := hle _ rfl
    refine ⟨r, d, rfl, hpos, hd, ?_⟩
    intro u' hu'
    rw [Option.some.injEq, finite_inj] at hu'
    linarith

theorem inset_upper {u : Extended} (hu : b.bound i .upper = some u)
    (hsep : ∀ l, b.bound i .lower = some l → l < u) :
    ∃ r d, u = finite r ∧ 0 < d ∧
      inset (finite zero) u (halfWidth (b.bound i .lower) (b.bound i .upper)) = finite d ∧
      ∀ l, b.bound i .lower = some (finite l) → l < r - d := by
  obtain ⟨r, rfl⟩ := isFinite_iff.mp (hb i .upper u hu)
  cases hl : b.bound i .lower with
  | none =>
    obtain ⟨d, hd, hpos, _⟩ := inset_finite hzero r none nofun
    exact ⟨r, d, rfl, hpos, hd, nofun⟩
  | some l =>
    obtain ⟨l, rfl⟩ := isFinite_iff.mp (hb i .lower l hl)
    have hlu := hsep _ hl
    rw [finite_lt] at hlu
    rw [hu, halfWidth_finite]
    obtain ⟨d, hd, hpos, hle⟩ := inset_finite hzero r (some (finite ((r - l) / 2)))
      fun h hh => ⟨(r - l) / 2, by linarith, (Option.some.inj hh).symm⟩
    have hhalf := hle _ rfl
    refine ⟨r, d, rfl, hpos, hd, ?_⟩
    intro l' hl'
    rw [Option.some.injEq, finite_inj] at hl'
    linarith

theorem nudgeInside_admits {v : Extended} (hv : v ≠ .nan)
    (hsep : ∀ l u, b.bound i .lower = some l → b.bound i .upper = some u → l < u) :
    b.Admits i (b.nudgeInside (finite zero) i v) ∧
      (b.nudgeInside (finite zero) i v = v ∨ ∃ r, b.nudgeInside (finite zero) i v = finite r) := by
  have hself : v ≤ v := le_self_iff.mpr hv
  -- Above the lower bound the value is what it was, or it has moved and is below the upper bound.
  have hlifted : ∃ w, lifted (finite zero) (halfWidth (b.bound i .lower) (b.bound i .upper))
      (b.bound i .lower) v = w ∧ (∀ l, b.bound i .lower = some l → l < w) ∧ w ≤ w ∧
      (w = v ∨ ∃ r, w = finite r) := by
    cases hl : b.bound i .lower with
    | none => exact ⟨v, rfl, nofun, hself, .inl rfl⟩
    | some l =>
      obtain ⟨r, d, rfl, hpos, hd, _⟩ := inset_lower hb hzero hl fun u hu => hsep l u hl hu
      rw [hl] at hd
      unfold lifted
      dsimp only
      split
      . refine ⟨finite (r + d), by rw [hd, finite_add], ?_, le_refl (r + d), .inr ⟨_, rfl⟩⟩
        intro l' hl'
        cases hl'
        rw [finite_lt]
        linarith
      . next hle =>
        refine ⟨v, rfl, ?_, hself, .inl rfl⟩
        intro l' hl'
        cases hl'
        exact Scalar.lt_of_not_le hself (le_refl r) hle
  obtain ⟨w, hw, hlower, hwself, hcases⟩ := hlifted
  rw [nudgeInside_eq, hw]
  cases hu : b.bound i .upper with
  | none =>
    refine ⟨⟨hlower, ?_⟩, hcases⟩
    rw [hu]
    nofun
  | some u =>
    obtain ⟨r, d, rfl, hpos, hd, hbelow⟩ := inset_upper hb hzero hu fun l hl => hsep l u hl hu
    rw [hu] at hd
    unfold dropped
    dsimp only
    split
    . rw [hd, finite_sub]
      refine ⟨⟨?_, ?_⟩, .inr ⟨_, rfl⟩⟩
      . intro l hl
        obtain ⟨l, rfl⟩ := isFinite_iff.mp (hb i .lower l hl)
        exact finite_lt.mpr (hbelow l hl)
      . intro u' hu'
        rw [hu] at hu'
        cases hu'
        rw [finite_lt]
        linarith
    . next hle =>
      refine ⟨⟨hlower, ?_⟩, hcases⟩
      intro u' hu'
      rw [hu] at hu'
      cases hu'
      exact Scalar.lt_of_not_le (le_refl r) hwself hle

end Inside

end Bounds

variable {n : Nat} {b : Bounds Extended n} {zero : ℝ}

theorem nudgeInside_idem (hb : b.AllFinite) (hzero : 0 < zero)
    (hsep : ∀ i l u, b.bound i .lower = some l → b.bound i .upper = some u → l < u)
    (x : Vector Extended n) :
    nudgeInside b (finite zero) (nudgeInside b (finite zero) x) = nudgeInside b (finite zero) x := by
  apply vector_ext
  intro i
  unfold nudgeInside
  rw [getElem_vectorOfFn, getElem_vectorOfFn]
  by_cases hx : x[i] = .nan
  . rw [hx, Bounds.nudgeInside_nan, Bounds.nudgeInside_nan]
  . exact Bounds.nudgeInside_of_admits (Bounds.nudgeInside_admits hb hzero hx (hsep i)).1 _

theorem checkStart_nudgeInside (hc : b.crossed = false) (hb : b.AllFinite) (hzero : 0 < zero)
    {x : Vector Extended n} (hsep : b.Separates x) :
    b.checkStart (nudgeInside b (finite zero) x) = .ok () := by
  rw [Bounds.checkStart_eq_ok_iff]
  refine ⟨hc, ?_⟩
  intro i side
  unfold nudgeInside
  rw [getElem_vectorOfFn]
  by_cases hx : x[i] = .nan
  . rw [hx, Bounds.nudgeInside_nan]
    exact Bounds.not_reached_nan side
  . exact (Bounds.nudgeInside_admits hb hzero hx fun l u hl hu =>
      hsep i l u hl hu (le_self_iff.mpr hx)).1.not_reached side

namespace Input

variable {α : Type} [Scalar α]

theorem vector_of_sideBounds {n : Nat} {side : Side} {g : Option (Grid α)} {bs : Vector (Option α) n}
    (h : sideBounds n side g = .ok bs) :
    ∃ bound, asBound g n = .ok bound ∧ bound.vector? n = some bs := by
  unfold sideBounds at h
  unfold asBound
  cases g with
  | none =>
    cases h
    have hn : ¬(n : Int) < 0 := Int.not_lt.mpr (Int.natCast_nonneg n)
    dsimp only
    rw [if_neg hn, Int.toNat_natCast]
    refine ⟨_, rfl, ?_⟩
    simp [Grid.vector?, Grid.ofArray, sized?]
  | some g =>
    dsimp only at h
    cases hv : g.vector? n with
    | none =>
      rw [hv] at h
      cases h
    | some v =>
      rw [hv] at h
      cases h
      refine ⟨_, rfl, ?_⟩
      unfold Grid.vector? at hv ⊢
      split at hv
      . next hshape =>
        unfold sized? at hv ⊢
        split at hv
        . next hsize =>
          cases hv
          have hmap : (g.map finiteBound).entries.size = n := by
            simp [Grid.map, hsize]
          have hmapShape : (g.map finiteBound).shape = [n] := hshape
          rw [if_pos hmapShape, dif_pos hmap]
          rfl
        . cases hv
      . cases hv

variable {lower upper : Option (Grid α)}

theorem nudge_of_sides {n : Nat} {b : Bounds α n} (hl : sideBounds n .lower lower = .ok b.lower)
    (hu : sideBounds n .upper upper = .ok b.upper) (y : Vector α n) (zero : α) :
    nudge (.ofArray y.toArray) lower upper zero = .ok (.ofArray (nudgeInside b zero y).toArray) := by
  obtain ⟨w, rfl⟩ := y
  obtain ⟨lowerBound, hlower, hlowerVector⟩ := vector_of_sideBounds hl
  obtain ⟨upperBound, hupper, hupperVector⟩ := vector_of_sideBounds hu
  have hw : (Grid.ofArray w).vector? w.size = some w.toVector := by
    simp [Grid.vector?, Grid.ofArray, sized?, Array.toVector]
  unfold nudge
  dsimp only [Grid.ofArray] at hw ⊢
  rw [hlower, hupper]
  simp only [bind, Except.bind]
  rw [hlowerVector, hupperVector, hw]
  rfl

end Input

section Restart

variable {problem : Problem Extended n} {settings : Settings Extended} {epsilon : ℝ} {searchFuel : Nat}
  {x : Vector Extended n} {limit : Nat} (hb : b.AllFinite) (hcheck : b.checkStart x = .ok ())
  (hepsilon : 0 < epsilon) (hzero : 0 < zero)
include hb hcheck hepsilon hzero

theorem Minimize.Solves.checkStart {k : Nat} {y : Vector Extended n} {log : List (Event Extended n)}
    {result : Except (Error Extended) (Solution Extended n)}
    (h : Minimize.Solves problem settings { epsilon := finite epsilon, zero := finite zero } searchFuel b x
      limit k y log result) : b.checkStart y = .ok () := by
  induction h with
  | first => exact hcheck
  | @again k y z log last hbefore _ _ hz ih =>
    rw [hz]
    exact checkStart_nudgeInside (Bounds.checkStart_eq_ok_iff.mp hcheck).1 hb hzero
      (solve_separates hb ih ⟨finite_lt.mpr hepsilon, finite_lt.mpr hzero⟩ hbefore.result_eq.symm)

theorem Minimize.Solves.error {k : Nat} {y : Vector Extended n} {log : List (Event Extended n)}
    {e : Error Extended}
    (h : Minimize.Solves problem settings { epsilon := finite epsilon, zero := finite zero } searchFuel b x
      limit k y log (.error e)) : e.isOfSearch = true ∨ e.isPlain = true :=
  solve_error hb (h.checkStart hb hcheck hepsilon hzero)
    ⟨finite_lt.mpr hepsilon, finite_lt.mpr hzero⟩ h.result_eq.symm

theorem minimize_iterationLimit (policy : Minimize.Policy) (hpolicy : 0 ≤ policy.maxRestarts)
    (restarts : Nat) (last : Array Extended) :
    (minimize problem settings { epsilon := finite epsilon, zero := finite zero } searchFuel b x
      policy).result = .error (.breakdown (.iterationLimit restarts last)) ↔
    policy.raiseOnFailure = true ∧ restarts = policy.maxRestarts ∧ ∃ y log solution,
      Minimize.Solves problem settings { epsilon := finite epsilon, zero := finite zero } searchFuel b x
        policy.maxRestarts.toNat restarts y log (.ok solution) ∧
      solution.status = .budgetExhausted ∧ solution.x.toArray = last := by
  obtain ⟨k, y, log, result, hsolves, hlast, hminimize⟩ := Minimize.minimize_solves problem settings
    { epsilon := finite epsilon, zero := finite zero } searchFuel b x policy hpolicy
  have hlimit : (policy.maxRestarts.toNat : Int) = policy.maxRestarts := Int.toNat_of_nonneg hpolicy
  rw [hminimize]
  constructor
  . intro h
    cases result with
    | error e =>
      cases h
      cases hsolves.error hb hcheck hepsilon hzero with
      | inl h => cases h
      | inr h => cases h
    | ok solution =>
      unfold Minimize.answer at h
      dsimp only at h
      split at h
      . next hfailed =>
        cases h
        cases hlast solution rfl with
        | inl hconverged =>
          rw [hfailed.1] at hconverged
          cases hconverged
        | inr hk =>
          rw [hk] at hsolves ⊢
          exact ⟨hfailed.2, hlimit, y, log, solution, hsolves, hfailed.1, rfl⟩
      . cases h
  . intro h
    obtain ⟨hraise, hrestarts, y', log', solution, hall, hstatus, rfl⟩ := h
    have hcount : restarts = policy.maxRestarts.toNat := by omega
    -- The runs of the front end went on to the last one, as none of these has converged.
    have hk : k = restarts := by
      apply Nat.le_antisymm
      . rw [hcount]
        exact hsolves.le_limit
      . apply Nat.le_of_not_lt
        intro hlt
        obtain ⟨y'', log'', last, hbefore, hunconverged⟩ := hall.before hlt
        obtain ⟨_, _, rfl⟩ := hbefore.unique hsolves
        cases hlast last rfl with
        | inl hconverged =>
          rw [hunconverged] at hconverged
          cases hconverged
        | inr hk => omega
    subst hk
    obtain ⟨_, _, rfl⟩ := hall.unique hsolves
    unfold Minimize.answer
    exact if_pos ⟨hstatus, hraise⟩

end Restart

/-- A finite point is moved strictly inside the bounds, as far as it was not there before, and moving it
again changes nothing. If the front end accepts the start, then its runs of the solver, of which there are
at most as many as there may be restarts and one more, are never refused. It complains about the iterations
exactly if none of all these runs has converged. -/
theorem minimize_restarts {v : Array Extended} {lower upper : Option (Grid Extended)}
    {s : Input.Start Extended} (hstart : Input.start (.ofArray v) lower upper = .ok s) {zero : ℝ}
    (hzero : 0 < zero) :
    ((∀ i : Fin s.size, Scalar.isFinite s.x[i] = true) →
      (∀ i l u, s.bounds.bound i .lower = some l → s.bounds.bound i .upper = some u → l < u) →
      ∃ y : Vector Extended s.size,
        Input.nudge (.ofArray v) lower upper (.finite zero) = .ok (.ofArray y.toArray) ∧
        (∀ i : Fin s.size, Scalar.isFinite y[i] = true ∧ s.bounds.Admits i y[i] ∧
          (s.bounds.Admits i s.x[i] → y[i] = s.x[i])) ∧
        Input.nudge (.ofArray y.toArray) lower upper (.finite zero) = .ok (.ofArray y.toArray)) ∧
    (s.bounds.checkStart s.x = .ok () → ∀ (problem : Problem Extended s.size)
      (settings : Settings Extended) (epsilon : ℝ), 0 < epsilon → ∀ (searchFuel : Nat)
      (policy : Minimize.Policy), 0 ≤ policy.maxRestarts →
      let precision : Precision Extended := { epsilon := .finite epsilon, zero := .finite zero }
      let Solves := Minimize.Solves problem settings precision searchFuel s.bounds s.x
        policy.maxRestarts.toNat
      let run := minimize problem settings precision searchFuel s.bounds s.x policy
      (∃ k y log result, Solves k y log result ∧ k ≤ policy.maxRestarts ∧
        run = ⟨.note (.precision precision.epsilon precision.zero) :: log,
          Minimize.answer policy.raiseOnFailure k result⟩) ∧
      (∀ k y log result, Solves k y log result → s.bounds.checkStart y = .ok ()) ∧
      (∀ refusal, run.result ≠ .error (.refusal refusal)) ∧
      ∀ (restarts : Nat) (last : Array Extended),
        run.result = .error (.breakdown (.iterationLimit restarts last)) ↔
          policy.raiseOnFailure = true ∧ restarts = policy.maxRestarts ∧ ∃ y log solution,
            Solves restarts y log (.ok solution) ∧ solution.status = .budgetExhausted ∧
            solution.x.toArray = last) := by
  have hb := Input.allFinite_of_start hstart
  obtain ⟨hl, hu, hentries⟩ := Input.sides_of_start hstart
  have hx : s.x.toArray = v := hentries
  constructor
  . intro hfinite hsep
    refine ⟨nudgeInside s.bounds (.finite zero) s.x, ?_, ?_, ?_⟩
    . rw [← hx]
      exact Input.nudge_of_sides hl hu s.x (.finite zero)
    . intro i
      obtain ⟨r, hr⟩ := isFinite_iff.mp (hfinite i)
      have hdefined : s.x[i] ≠ .nan := by
        rw [hr]
        nofun
      obtain ⟨hadmits, hcases⟩ := Bounds.nudgeInside_admits hb hzero hdefined (hsep i)
      unfold nudgeInside
      rw [getElem_vectorOfFn]
      refine ⟨?_, hadmits, fun h => Bounds.nudgeInside_of_admits h _⟩
      cases hcases with
      | inl heq =>
        rw [heq]
        exact hfinite i
      | inr hmoved => exact isFinite_iff.mpr hmoved
    . rw [Input.nudge_of_sides hl hu, nudgeInside_idem hb hzero hsep]
  . intro hcheck problem settings epsilon hepsilon searchFuel policy hpolicy
    obtain ⟨k, y, log, result, hsolves, hlast, hminimize⟩ := Minimize.minimize_solves problem settings
      { epsilon := .finite epsilon, zero := .finite zero } searchFuel s.bounds s.x policy hpolicy
    have hle := hsolves.le_limit
    refine ⟨⟨k, y, log, result, hsolves, by omega, hminimize⟩, ?_, ?_,
      minimize_iterationLimit hb hcheck hepsilon hzero policy hpolicy⟩
    . intro k y log result h
      exact h.checkStart hb hcheck hepsilon hzero
    . intro refusal hrefusal
      rw [hminimize] at hrefusal
      cases result with
      | error e =>
        -- A run that has started fails in a search or after it, and neither is a refusal.
        cases hrefusal
        cases hsolves.error hb hcheck hepsilon hzero with
        | inl h => cases h
        | inr h => cases h
      | ok solution =>
        unfold Minimize.answer at hrefusal
        dsimp only at hrefusal
        split at hrefusal
        . cases hrefusal
        . cases hrefusal

namespace Bowl

noncomputable def edge : Input.Start Extended :=
  { size := 1, bounds := Line.above 0, x := Line.point 0 }

theorem start_edge :
    Input.start (.ofArray #[.finite 0]) (some (.ofArray #[.finite 0])) none = .ok edge :=
  Line.start_above 0

theorem nudgeInside_edge :
    nudgeInside (Line.above 0) Line.precision.zero (Line.point 0) = Line.point (1 / 67108864) := by
  have hreached : finite 0 ≤ finite 0 := finite_le.mpr le_rfl
  have hmove : finite 0 + inset Line.precision.zero (finite 0) none = finite (1 / 67108864) := by
    show finite 0 + finite (1 / 67108864) * Scalar.maximum (Scalar.abs (finite 0)) 1 = _
    rw [abs_finite, one_eq, maximum_finite, finite_mul, finite_add]
    norm_num
  unfold nudgeInside Line.point
  rw [eq_ofReals_iff]
  intro i
  rw [getElem_vectorOfFn, Subsingleton.elim i 0, getElem_ofReals]
  show (if finite 0 ≤ finite 0 then finite 0 + inset Line.precision.zero (finite 0) none else finite 0) = _
  rw [if_pos hreached, hmove]

theorem solves_again : ∃ log result, Minimize.Solves problem (settings 1) Line.precision 100 (Line.above 0)
    (Line.point 3) 2 1 (Line.point (1 / 67108864)) log result := by
  obtain ⟨_, _, hexhausted⟩ := solve_exhausted 99 isParabola
  have hfirst : Minimize.Solves problem (settings 1) Line.precision 100 (Line.above 0) (Line.point 3) 2 0
    (Line.point 3) _ _ := .first
  rw [hexhausted] at hfirst
  exact ⟨_, _, hfirst.again rfl two_pos nudgeInside_edge.symm⟩

end Bowl

theorem minimize_restarts_bowl :
    (∃ y : Vector Extended 1,
      Input.nudge (.ofArray #[.finite 0]) (some (.ofArray #[.finite 0])) none Line.precision.zero =
        .ok (.ofArray y.toArray) ∧
      (∀ i : Fin 1, Scalar.isFinite y[i] = true ∧ (Line.above 0).Admits i y[i] ∧
        ((Line.above 0).Admits i (Line.point 0)[i] → y[i] = (Line.point 0)[i])) ∧
      Input.nudge (.ofArray y.toArray) (some (.ofArray #[.finite 0])) none Line.precision.zero =
        .ok (.ofArray y.toArray)) ∧
    let Solves := Minimize.Solves Bowl.problem (Bowl.settings 1) Line.precision 100 (Line.above 0)
      (Line.point 3) 2
    let run := minimize Bowl.problem (Bowl.settings 1) Line.precision 100 (Line.above 0) (Line.point 3)
      { maxRestarts := 2, raiseOnFailure := true }
    (∃ log result, Solves 1 (Line.point (1 / 67108864)) log result ∧
      (Line.above 0).checkStart (Line.point (1 / 67108864)) = .ok ()) ∧
    (∃ k y log result, Solves k y log result ∧ (k : Int) ≤ 2 ∧
      run = ⟨.note (.precision Line.precision.epsilon Line.precision.zero) :: log,
        Minimize.answer true k result⟩) ∧
    (∀ refusal, run.result ≠ .error (.refusal refusal)) ∧
    ∀ (restarts : Nat) (last : Array Extended),
      run.result = .error (.breakdown (.iterationLimit restarts last)) ↔
        true = true ∧ (restarts : Int) = 2 ∧ ∃ y log solution, Solves restarts y log (.ok solution) ∧
          solution.status = .budgetExhausted ∧ solution.x.toArray = last := by
  have hapart : ∀ (i : Fin 1) (l u : Extended), (Line.above 0).bound i .lower = some l →
      (Line.above 0).bound i .upper = some u → l < u := by
    rw [Fin.forall_fin_one]
    intro l u _ hu
    cases hu
  have hnudged := (minimize_restarts Bowl.start_edge Line.zero_pos).1 (Line.isFinite_point 0) hapart
  obtain ⟨hruns, haccepted, hrefusal, hlimit⟩ := (minimize_restarts Line.start_input Line.zero_pos).2
    Line.checkStart_above Bowl.problem (Bowl.settings 1) _ Line.epsilon_pos 100
    { maxRestarts := 2, raiseOnFailure := true } (by decide)
  obtain ⟨log, result, hagain⟩ := Bowl.solves_again
  exact ⟨hnudged, ⟨log, result, hagain, haccepted _ _ _ _ hagain⟩, hruns, hrefusal, hlimit⟩

end BoxDescent

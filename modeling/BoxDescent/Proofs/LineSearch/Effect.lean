import BoxDescent.Proofs.LineSearch.Limit
import BoxDescent.Proofs.LineSearch.Search

/-!
This module contains all that one line search does to the point and to the active set, whatever the objective
and its gradient answer and however the arithmetic rounds (`search_hasEffect`). A step that is accepted is
always defined, so it can be told whether it reaches the bound of the variable that limits it.
-/

namespace BoxDescent

variable {α : Type} [Scalar α] {n : Nat}

open LineSearch

structure ActiveSet.Gains (b a : ActiveSet α n) (side : Fin n → Side) (is : List (Fin n)) : Prop where
  bounds : b.bounds = a.bounds
  indices : b.indices = a.indices ++ is
  fixed : ∀ i : Fin n, b.fixed[i] = true ↔ a.fixed[i] = true ∨ i ∈ is
  working : ∀ i s, b.working.bound i s = if i ∈ is ∧ s = side i then none else a.working.bound i s

omit [Scalar α] in
theorem ActiveSet.gains_fixEach (a : ActiveSet α n) (side : Fin n → Side) (is : List (Fin n)) :
    (a.fixEach side is).Gains a side is :=
  ⟨a.bounds_fixEach side is, a.indices_fixEach side is, a.fixed_fixEach side is, a.working_fixEach side is⟩

inductive LineSearch.IsFixedBy (step? : Fin n → Option α) (is : List (Fin n)) (step : α) :
    List (Fin n) → Prop where
  | reached {b : Fin n} {m : α} : IsFirstLeast step? is b m → m ≤ step → IsFixedBy step? is step [b]
  -- A step to a bound that overflows limits nothing, not even a step that does so too.
  | short : (∀ i ∈ is, ∀ k, step? i = some k →
      Scalar.isFinite k = true ∨ Scalar.isFinite step = true → ¬k ≤ step) → IsFixedBy step? is step []

/-- What a search from `x`, where the objective is `f`, does to the point and to the active set `a`, by its
status. The last four fields hold for every status. -/
structure SearchResult.HasEffect (s : SearchResult α n) (p : Precision α) (a : ActiveSet α n)
    (x : Vector α n) (f : α) : Prop where
  stationary : s.status = .stationary ↔
    Scalar.abs s.slope ≤ p.zero ∨ relativeChange s.direction x a.free ≤ p.zero
  unmoved : s.status = .stationary ∨ s.status = .noProgress →
    s.x = x ∧ s.value = f ∧ s.newlyFixed = [] ∧ s.activeSet = a
  zeroStep : s.status ≠ .stationary →
    (s.status = .zeroStep ↔ ∃ i ∈ a.free, onBound p s.direction x a.working i = true)
  fixedAtStart : s.status = .zeroStep → s.value = f ∧ s.newlyFixed.Pairwise (· < ·) ∧
    (∀ i, i ∈ s.newlyFixed ↔ i ∈ a.free ∧ onBound p s.direction x a.working i = true) ∧
    ∀ i : Fin n, i ∉ s.newlyFixed → s.x[i] = x[i]
  fixedByStep : s.status = .accepted →
    IsFixedBy (boundStep? p s.direction x a.working) a.free s.step s.newlyFixed
  moved : s.status = .accepted → ∀ i ∈ a.free, i ∉ s.newlyFixed →
    s.x[i] = a.working.clip i (x[i] + s.step * s.direction[i])
  held : ∀ i : Fin n, a.fixed[i] = true → s.x[i] = x[i]
  free : ∀ i ∈ s.newlyFixed, a.fixed[i] = false
  sits : ∀ i ∈ s.newlyFixed, a.working.bound i (towards s.direction[i]) = some s.x[i]
  gains : s.activeSet.Gains a (fun i => towards s.direction[i]) s.newlyFixed

namespace LineSearch

section Defined

def Stage.IsDefined (r : Ray α n) : Stage α → Prop
  | .trial _ => True
  | .extrapolation e => e.low ≤ e.low ∧ e.step ≤ e.step
  | .bracket b _ => b.low ≤ b.low ∧ b.slope < r.curvatureSlope

def Next.IsDefined (r : Ray α n) : Next α → Prop
  | .inl s => s.IsDefined r
  | .inr (.accepted step _) => step ≤ step
  | .inr .noProgress => True

variable {r : Ray α n}

theorem Bracket.Continues.isDefined {b : Bracket α} {next : Next α} (h : b.Continues r next)
    (hlow : b.low ≤ b.low) (hlast : ¬b.slope < r.curvatureSlope → b.last ≤ b.last) :
    Next.IsDefined r next := by
  cases h with
  | inside hsteep _ => exact ⟨hlow, hsteep⟩
  | lowEnd _ _ => exact hlow
  | last hflat => exact hlast hflat

variable [Scalar.Strict α]

open Scalar.Lawful Scalar.Strict

theorem Ray.le_self_of_threshold {f step : α} (h : f ≤ r.threshold step) : step ≤ step := by
  apply Classical.byContradiction
  intro hstep
  exact add_undefined_right (mul_undefined (mul_undefined_right hstep)) (le_self_right h)

theorem Extrapolation.Continues.isDefined {low lowValue lowSlope : α} {next : Next α}
    (h : Extrapolation.Continues r low lowValue lowSlope next) (hlow : low ≤ low) :
    Next.IsDefined r next := by
  cases h with
  | double _ =>
    refine ⟨hlow, ?_⟩
    cases r.extrapolationLimit with
    | none => exact le_double hlow
    | some limit => exact Scalar.pickMin_le_self (le_double hlow)
  | atLimit _ hbracket => exact hbracket.isDefined hlow fun _ => hlow

variable (hreach : ∀ v, r.reach = some v → v ≤ v)
include hreach

theorem firstTrial_le_self : (firstTrial r).step ≤ (firstTrial r).step := by
  unfold firstTrial
  dsimp only
  split
  . exact one_le
  . next v hv => exact Scalar.pickMin_le_self (hreach v hv)

theorem Stage.Advances.isDefined {s : Stage α} {f : α} {next : Next α} (h : s.Advances r f next)
    (hs : s.IsDefined r) : Next.IsDefined r next := by
  cases h with
  | notFinite _ _ => trivial
  | halved _ _ => trivial
  | trialTaken hle _ _ => exact Ray.le_self_of_threshold hle
  | trialBracketed hle _ _ _ hnext =>
    have hself := Ray.le_self_of_threshold hle
    exact hnext.isDefined hself fun _ => hself
  | trialExtended hle _ _ _ hnext => exact hnext.isDefined (Ray.le_self_of_threshold hle)
  | gaveUp _ _ hending =>
    cases hending with
    | fullStep _ _ => exact firstTrial_le_self hreach
    | noDecrease => trivial
  | shortened _ _ _ => trivial
  | extrapolationTaken hle _ _ => exact Ray.le_self_of_threshold hle
  | extended hle _ _ hnext => exact hnext.isDefined (Ray.le_self_of_threshold hle)
  | extrapolationBracketed _ hnext => exact hnext.isDefined hs.1 fun _ => hs.2
  | raised hle _ hsteep hnext =>
    exact hnext.isDefined (Ray.le_self_of_threshold hle) fun hflat => absurd hsteep hflat
  | bracketTaken hle _ _ => exact Ray.le_self_of_threshold hle
  | lowered _ hnext => exact hnext.isDefined hs.1 fun hflat => absurd hs.2 hflat

theorem Ray.Reaches.isDefined {s : Stage α} (h : r.Reaches s) : s.IsDefined r := by
  induction h with
  | first => trivial
  | next _ _ hadvance ih => exact (Stage.advances_of_result hadvance).isDefined hreach ih

theorem Ray.Ends.isDefined {step value : α} (h : r.Ends (.accepted step value)) : step ≤ step := by
  obtain ⟨s, f, hs, _, hadvance⟩ := h
  exact (Stage.advances_of_result hadvance).isDefined hreach (hs.isDefined hreach)

end Defined

section Effect

variable {p : Precision α} {a : ActiveSet α n} {x : Vector α n} {f : α}

theorem Heading.stay_hasEffect (h : Heading α n)
    (hstill : Scalar.abs h.slope ≤ p.zero ∨ relativeChange h.direction x a.free ≤ p.zero) :
    (h.stay a x f).HasEffect p a x f where
  stationary := ⟨fun _ => hstill, fun _ => rfl⟩
  unmoved := fun _ => ⟨rfl, rfl, rfl, rfl⟩
  zeroStep := fun hne => absurd rfl hne
  fixedAtStart := nofun
  fixedByStep := nofun
  moved := nofun
  held := fun _ _ => rfl
  free := nofun
  sits := nofun
  gains := a.gains_fixEach _ []

theorem Reach.Settles.exists_onBound {direction : Vector α n} {side : Fin n → Side} {is : List (Fin n)}
    {s : Reach α n} (h : s.Settles p direction x a side is) (hany : s.step.any (· ≤ p.zero) = true) :
    ∃ i ∈ is, onBound p direction x a.working i = true := by
  apply Classical.byContradiction
  intro hnone
  have hnewlyFixed : s.newlyFixed = [] := by
    rw [h.newlyFixed, List.filter_eq_nil_iff]
    exact fun i hi hon => hnone ⟨i, hi, hon⟩
  have hlimit := h.limit hnewlyFixed
  rw [Option.any_eq_true] at hany
  obtain ⟨v, hv, hle⟩ := hany
  rw [hv] at hlimit
  generalize s.blocking = blocking at hlimit
  cases hlimit with
  | blocked hb _ => exact hnone ⟨_, hb.mem, onBound_iff.mpr ⟨v, hb.attained, of_decide_eq_true hle⟩⟩

theorem Reach.Settles.any_of_onBound {direction : Vector α n} {side : Fin n → Side} {is : List (Fin n)}
    {s : Reach α n} (h : s.Settles p direction x a side is) {i : Fin n} (hi : i ∈ is)
    (hon : onBound p direction x a.working i = true) : s.step.any (· ≤ p.zero) = true := by
  obtain ⟨k, hk, hle⟩ := onBound_iff.mp hon
  apply Classical.byContradiction
  intro hany
  obtain ⟨hnone, _⟩ := h.untouched (Bool.eq_false_iff.mpr hany)
  exact h.not_le hnone hi hk hle

theorem Heading.zeroStep_hasEffect (h : Heading α n) {s : Reach α n}
    (hs : s.Settles p h.direction x a (fun i => towards h.direction[i]) a.free)
    (hmoves : ¬(Scalar.abs h.slope ≤ p.zero ∨ relativeChange h.direction x a.free ≤ p.zero))
    (hany : s.step.any (· ≤ p.zero) = true) :
    ({ h.stay s.activeSet s.x f with status := .zeroStep, newlyFixed := s.newlyFixed } :
      SearchResult α n).HasEffect p a x f where
  stationary := ⟨nofun, fun hstill => absurd hstill hmoves⟩
  unmoved := by
    rintro (h | h)
    . cases h
    . cases h
  zeroStep := fun _ => ⟨fun _ => hs.exists_onBound hany, fun _ => rfl⟩
  fixedAtStart := by
    intro _
    refine ⟨rfl, ?_, ?_, hs.unmoved⟩
    . show s.newlyFixed.Pairwise (· < ·)
      rw [hs.newlyFixed]
      exact (pairwise_unmasked a.fixed).filter _
    . intro i
      show i ∈ s.newlyFixed ↔ i ∈ a.free ∧ onBound p h.direction x a.working i = true
      rw [hs.newlyFixed, List.mem_filter]
  fixedByStep := nofun
  moved := nofun
  held := by
    intro i hi
    apply hs.unmoved
    intro hmem
    rw [hs.newlyFixed, List.mem_filter, ActiveSet.mem_free, hi] at hmem
    cases hmem.1
  free := by
    intro i hmem
    change i ∈ s.newlyFixed at hmem
    rw [hs.newlyFixed, List.mem_filter, ActiveSet.mem_free] at hmem
    exact hmem.1
  sits := hs.sits
  gains := by
    show s.activeSet.Gains a _ s.newlyFixed
    rw [hs.activeSet]
    exact a.gains_fixEach _ _

variable [Scalar.Strict α] {problem : Problem α n} {parameters : Parameters α}
  (hp : parameters.precision.Positive) {grad direction : Vector α n} {maxNorm : α}
include hp

theorem aim_hasEffect : (aim problem parameters a x f grad direction maxNorm).Meets (fun _ => True)
    (fun _ => True) fun
      | .inl _ => True
      | .inr halted => halted.HasEffect parameters.precision a x f := by
  unfold aim
  apply Logged.Meets.bind (orient_isFrom (fun _ => trivial) (fun _ _ => trivial) _)
  intro oriented horiented
  obtain ⟨heading, descends⟩ := oriented
  obtain ⟨_, _, _, hdescends, hflat⟩ := horiented
  dsimp only at hdescends hflat ⊢
  cases descends with
  | false => exact Logged.meets_pure (heading.stay_hasEffect (Or.inl (hflat rfl)))
  | true =>
    rw [if_neg (by decide)]
    apply Logged.Meets.bind (heading.minStep?_moves (fun _ => trivial) _ _ _)
    intro minStep? hminStep
    cases minStep? with
    | none => exact Logged.meets_pure (heading.stay_hasEffect (Or.inr hminStep))
    | some minStep =>
      apply Logged.Meets.bind (reach_settles (fun _ => trivial) hp.zero fun _ _ _ hh =>
        (towards_of_heading hp.epsilon hh).symm)
      intro s hs
      unfold Heading.ray
      apply meets_note_bind trivial
      split
      . next hany =>
        apply meets_note_bind trivial
        apply Logged.meets_pure
        exact heading.zeroStep_hasEffect hs (not_or.mpr ⟨(hdescends rfl).1, hminStep.1⟩) hany
      . exact Logged.meets_pure trivial

theorem Heading.Leads.search_zeroStep {h : Heading α n}
    (hleads : h.Leads parameters a x grad direction maxNorm)
    (hon : ∃ i ∈ a.free, onBound parameters.precision h.direction x a.working i = true) (fuel : Nat)
    (problem : Problem α n) (f : α) :
    ∃ s, (search fuel problem parameters a x f grad direction maxNorm).result = .ok s ∧
      s.status = .zeroStep := by
  obtain ⟨i, hi, hon⟩ := hon
  have hsettles : (reach parameters.precision h.direction x a a.free).Meets (fun _ => True) (fun _ => False)
      (Reach.Settles parameters.precision h.direction x a
        (sideAhead parameters.precision h.direction a.working) a.free) :=
    reach_settles (fun _ => trivial) hp.zero eq_sideAhead
  cases hreach : (reach parameters.precision h.direction x a a.free).result with
  | error e => exact absurd hreach (hsettles.error e)
  | ok s =>
    have hany := (hsettles.value s hreach).any_of_onBound hi hon
    exact ⟨_, hleads.search_result hreach hany fuel problem f, rfl⟩

variable {r : Ray α n} (hr : r.IsFrom problem parameters a x f grad direction maxNorm)
include hr

theorem Ray.IsFrom.fixBlocking_fixes {step : α} (hstep : step ≤ step) (y : Vector α n) :
    (r.fixBlocking step y).Meets (fun _ => True) (fun _ => True) fun out =>
      out.2.1 = a.fixEach (fun i => towards r.direction[i]) out.2.2 ∧
      IsFixedBy (boundStep? parameters.precision r.direction x a.working) a.free step out.2.2 ∧
      (∀ i ∈ out.2.2, i ∈ a.free ∧ a.working.bound i (towards r.direction[i]) = some out.1[i]) ∧
      ∀ i : Fin n, i ∉ out.2.2 → out.1[i] = y[i] := by
  obtain ⟨hactiveSet, hnewlyFixed, hoff, hlimited⟩ := hr.isLimitedBy hp.zero
  unfold Ray.fixBlocking
  rw [hactiveSet, hnewlyFixed]
  generalize r.reach = reach at hlimited
  generalize r.blocking = blocking at hlimited
  cases hlimited with
  | unlimited hall =>
    -- Every bound ahead is infinitely far away, so a finite step reaches none.
    apply Logged.meets_pure
    refine ⟨rfl, .short ?_, nofun, fun _ _ => rfl⟩
    intro i hi k hk hfinite hle
    have hlarge : ¬k ≤ parameters.precision.zero := by
      intro hsmall
      have hon := onBound_iff.mpr ⟨k, hk, hsmall⟩
      rw [hoff i hi] at hon
      cases hon
    have hkfinite : Scalar.isFinite k = true := by
      cases hfinite with
      | inl h => exact h
      | inr h => exact isFinite_of_not_le hp.zero hlarge hle h
    rw [hall i hi k hk] at hkfinite
    cases hkfinite
  | @blocked b m hb hm =>
    dsimp only
    split
    . next hbelow =>
      apply Logged.meets_pure
      refine ⟨rfl, .short ?_, nofun, fun _ _ => rfl⟩
      intro i hi k hk _ hle
      exact hb.least i hi k hk (Scalar.lt_of_le_of_lt hle (of_decide_eq_true hbelow))
    . next hbelow =>
      -- The step is at the nearest bound, and the variable is put on it.
      have hle : m ≤ step := by
        apply Classical.byContradiction
        intro hnot
        have hself : m ≤ m := Scalar.Lawful.le_self_of_isFinite hm
        exact hbelow (decide_eq_true (Scalar.lt_of_not_le hself hstep hnot))
      obtain ⟨v, hbound⟩ := exists_bound_of_boundStep? hp.epsilon hb.attained
      have hgetD : (a.working.bound b (if r.direction[b] > 0 then Side.upper else Side.lower)).getD
          Scalar.undefined = v := by
        show (a.working.bound b (towards r.direction[b])).getD Scalar.undefined = v
        rw [hbound, Option.getD_some]
      apply meets_note_bind trivial
      apply Logged.meets_pure
      rw [hgetD]
      refine ⟨rfl, .reached hb hle, ?_, ?_⟩
      . intro i hi
        rw [List.nil_append, List.mem_singleton] at hi
        subst hi
        rw [getElem_set, if_pos rfl]
        exact ⟨hb.mem, hbound⟩
      . intro i hi
        rw [List.nil_append, List.mem_singleton] at hi
        rw [getElem_set, if_neg (Ne.symm hi)]

theorem Ray.IsFrom.finish_hasEffect {ending : Ending α} (hends : r.Ends ending) :
    (r.finish ending).Meets (fun _ => True) (fun _ => True) (·.HasEffect parameters.precision a x f) := by
  obtain ⟨hactiveSet, hnewlyFixed, hoff, hlimited⟩ := hr.isLimitedBy hp.zero
  have hmoves : ¬(Scalar.abs r.slope ≤ parameters.precision.zero ∨
      relativeChange r.direction x a.free ≤ parameters.precision.zero) := not_or.mpr ⟨hr.steep, hr.moves⟩
  -- Otherwise there would be no ray, but a step of length zero.
  have hnone : ¬∃ i ∈ a.free, onBound parameters.precision r.direction x a.working i = true := by
    rintro ⟨i, hi, hon⟩
    rw [hoff i hi] at hon
    cases hon
  cases ending with
  | noProgress =>
    apply Logged.meets_pure
    rw [hactiveSet, hnewlyFixed, hr.origin, hr.value]
    exact {
      stationary := ⟨nofun, fun hstill => absurd hstill hmoves⟩
      unmoved := fun _ => ⟨rfl, rfl, rfl, rfl⟩
      zeroStep := fun _ => ⟨nofun, fun hon => absurd hon hnone⟩
      fixedAtStart := nofun
      fixedByStep := nofun
      moved := nofun
      held := fun _ _ => rfl
      free := nofun
      sits := nofun
      gains := a.gains_fixEach _ [] }
  | accepted step value =>
    have hreach : ∀ v, r.reach = some v → v ≤ v := by
      intro v hv
      rw [hv] at hlimited
      generalize r.blocking = blocking at hlimited
      cases hlimited with
      | blocked _ hm => exact Scalar.Lawful.le_self_of_isFinite hm
    apply Logged.Meets.bind (hr.fixBlocking_fixes hp (hends.isDefined hreach) _)
    rintro ⟨y, b, is⟩ ⟨hb, hfixed, hsits, hunmoved⟩
    apply Logged.meets_pure
    exact {
      stationary := ⟨nofun, fun hstill => absurd hstill hmoves⟩
      unmoved := by simp
      zeroStep := fun _ => ⟨nofun, fun hon => absurd hon hnone⟩
      fixedAtStart := nofun
      fixedByStep := fun _ => hfixed
      moved := by
        intro _ i hi hmem
        rw [ActiveSet.mem_free, ← hr.fixed] at hi
        rw [hunmoved i hmem, Ray.point_of_free hi, hactiveSet, hr.origin]
      held := by
        intro i hi
        have hmem : i ∉ is := by
          intro hmem
          rw [ActiveSet.mem_free.mp (hsits i hmem).1] at hi
          cases hi
        rw [← hr.fixed] at hi
        rw [hunmoved i hmem, Ray.point_of_fixed hi, hr.origin]
      free := fun i hi => ActiveSet.mem_free.mp (hsits i hi).1
      sits := fun i hi => (hsits i hi).2
      gains := by
        dsimp only at hb
        rw [hb]
        exact a.gains_fixEach _ is }

end Effect

theorem search_hasEffect [Scalar.Strict α] {parameters : Parameters α} (hp : parameters.precision.Positive)
    (fuel : Nat) (problem : Problem α n) (a : ActiveSet α n) (x : Vector α n) (f : α)
    (grad direction : Vector α n) (maxNorm : α) :
    (search fuel problem parameters a x f grad direction maxNorm).Meets (fun _ => True) (fun _ => True)
      (·.HasEffect parameters.precision a x f) := by
  have hreaches := search_reaches fuel problem parameters a x f grad direction maxNorm
  apply hreaches.mono (fun _ _ => trivial) (fun _ h => h)
  rintro result (hhalted | ⟨r, ending, hray, hends, hfinish⟩)
  . exact (aim_hasEffect hp).value _ hhalted
  . exact ((isFrom_of_aim hray).finish_hasEffect hp hends).value _ hfinish

end LineSearch

end BoxDescent

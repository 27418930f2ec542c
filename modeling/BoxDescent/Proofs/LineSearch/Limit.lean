import BoxDescent.Proofs.LineSearch.Aim
import BoxDescent.Proofs.LineSearch.Reach

/-!
This module contains what limits a line search, however the arithmetic rounds: the variables that are on the
bounds they head into, or else the first one of those that come to their bounds first (`reach_settles`). A
step that is not finite limits nothing.
-/

namespace BoxDescent.LineSearch

variable {α : Type} [Scalar α] {n : Nat}

def sideAhead (p : Precision α) (direction : Vector α n) (working : Bounds α n) (i : Fin n) : Side :=
  ((heading working p.epsilon direction[i] i).map (·.1)).getD .lower

theorem eq_sideAhead {p : Precision α} {direction : Vector α n} {working : Bounds α n} (i : Fin n)
    (side : Side) (v : α) (h : heading working p.epsilon direction[i] i = some (side, v)) :
    side = sideAhead p direction working i := by
  unfold sideAhead
  rw [h]
  rfl

structure IsFirstLeast (step? : Fin n → Option α) (is : List (Fin n)) (b : Fin n) (m : α) : Prop where
  mem : b ∈ is
  attained : step? b = some m
  least : ∀ i ∈ is, ∀ k, step? i = some k → ¬k < m
  first : ∀ i ∈ is, i < b → ∀ k, step? i = some k → ¬k ≤ m

inductive IsLimitedBy (step? : Fin n → Option α) (is : List (Fin n)) : Option α → Option (Fin n) → Prop where
  | unlimited : (∀ i ∈ is, ∀ k, step? i = some k → Scalar.isFinite k = false) → IsLimitedBy step? is none none
  | blocked {b : Fin n} {m : α} : IsFirstLeast step? is b m → Scalar.isFinite m = true →
      IsLimitedBy step? is (some m) (some b)

def onBound (p : Precision α) (direction x : Vector α n) (working : Bounds α n) (i : Fin n) : Bool :=
  (boundStep? p direction x working i).any (· ≤ p.zero)

theorem onBound_iff {p : Precision α} {direction x : Vector α n} {working : Bounds α n} {i : Fin n} :
    onBound p direction x working i = true ↔ ∃ k, boundStep? p direction x working i = some k ∧ k ≤ p.zero := by
  unfold onBound
  rw [Option.any_eq_true]
  simp only [decide_eq_true_eq]

section Limit

variable {step? : Fin n → Option α} {is : List (Fin n)} {limit : Option α} {blocking : Option (Fin n)}

theorem IsLimitedBy.skip (h : IsLimitedBy step? is limit blocking) {i : Fin n} (his : ∀ j ∈ is, j < i)
    (hi : ∀ k, step? i = some k → below k limit = false) : IsLimitedBy step? (is ++ [i]) limit blocking := by
  cases h with
  | unlimited hall =>
    apply IsLimitedBy.unlimited
    intro j hj k hk
    rw [List.mem_append, List.mem_singleton] at hj
    cases hj with
    | inl hj => exact hall j hj k hk
    | inr hj => exact hi k (hj ▸ hk)
  | @blocked b m hb hm =>
    refine .blocked ⟨List.mem_append_left _ hb.mem, hb.attained, ?_, ?_⟩ hm
    . intro j hj k hk
      rw [List.mem_append, List.mem_singleton] at hj
      cases hj with
      | inl hj => exact hb.least j hj k hk
      | inr hj => exact of_decide_eq_false (hi k (hj ▸ hk))
    . intro j hj hjb
      rw [List.mem_append, List.mem_singleton] at hj
      cases hj with
      | inl hj => exact hb.first j hj hjb
      | inr hj =>
        -- The variables are looked at in order, so the new one comes after `b`.
        subst hj
        exact absurd (his b hb.mem) (Nat.lt_asymm hjb)

variable [Scalar.Strict α] {zero k : α}

theorem isFinite_of_not_le {m : α} (hzero : 0 < zero) (hk : ¬k ≤ zero) (hkm : k ≤ m)
    (hm : Scalar.isFinite m = true) : Scalar.isFinite k = true := by
  have hlt := Scalar.lt_of_not_le (Scalar.Lawful.le_self_left hkm)
    (Scalar.Lawful.le_self_right (Scalar.le_of_lt hzero)) hk
  have hle := Scalar.Lawful.le_trans (Scalar.le_of_lt hzero) (Scalar.le_of_lt hlt)
  exact Scalar.Strict.isFinite_of_le_of_le Scalar.Strict.isFinite_zero hle hkm hm

theorem IsLimitedBy.shorten (h : IsLimitedBy step? is limit blocking) (hzero : 0 < zero)
    (hlarge : ∀ j ∈ is, ∀ k, step? j = some k → ¬k ≤ zero) {i : Fin n} (hi : step? i = some k)
    (hk : ¬k ≤ zero) (hbelow : below k limit = true) :
    IsLimitedBy step? (is ++ [i]) (some k) (some i) := by
  have hfinite : Scalar.isFinite k = true := by
    cases h with
    | unlimited _ => exact hbelow
    | blocked _ hm => exact isFinite_of_not_le hzero hk (Scalar.le_of_lt (of_decide_eq_true hbelow)) hm
  have hall : ∀ j ∈ is, ∀ l, step? j = some l → ¬l ≤ k := by
    intro j hj l hl hle
    cases h with
    | unlimited hall =>
      have hlfinite := isFinite_of_not_le hzero (hlarge j hj l hl) hle hfinite
      rw [hall j hj l hl] at hlfinite
      cases hlfinite
    | blocked hb _ =>
      exact hb.least j hj l hl (Scalar.lt_of_le_of_lt hle (of_decide_eq_true hbelow))
  refine .blocked ⟨by simp, hi, ?_, ?_⟩ hfinite
  . intro j hj l hl hlt
    rw [List.mem_append, List.mem_singleton] at hj
    cases hj with
    | inl hj => exact hall j hj l hl (Scalar.le_of_lt hlt)
    | inr hj =>
      rw [hj, hi, Option.some.injEq] at hl
      rw [hl] at hlt
      exact Scalar.lt_irrefl hlt
  . intro j hj hji
    rw [List.mem_append, List.mem_singleton] at hj
    cases hj with
    | inl hj => exact hall j hj
    | inr hj =>
      subst hj
      exact absurd hji (Nat.lt_irrefl j)

end Limit

/-- What looking at the variables `done` leaves behind: those on the bounds that they head into are fixed
there, and the step is zero then; otherwise it is limited by the others. -/
structure Reach.Settles (p : Precision α) (direction x : Vector α n) (a : ActiveSet α n)
    (side : Fin n → Side) (done : List (Fin n)) (s : Reach α n) : Prop where
  newlyFixed : s.newlyFixed = done.filter (onBound p direction x a.working)
  activeSet : s.activeSet = a.fixEach side s.newlyFixed
  sits : ∀ i ∈ s.newlyFixed, a.working.bound i (side i) = some s.x[i]
  unmoved : ∀ i : Fin n, i ∉ s.newlyFixed → s.x[i] = x[i]
  step : s.newlyFixed ≠ [] → ∃ v, s.step = some v ∧ v ≤ p.zero
  limit : s.newlyFixed = [] → IsLimitedBy (boundStep? p direction x a.working) done s.step s.blocking

section Settles

variable {p : Precision α} {direction x : Vector α n} {a : ActiveSet α n} {side : Fin n → Side}

namespace Reach.Settles

variable {done : List (Fin n)} {s : Reach α n} (h : s.Settles p direction x a side done) {i : Fin n}
include h

theorem not_le (hnone : s.newlyFixed = []) {j : Fin n} (hj : j ∈ done) {k : α}
    (hk : boundStep? p direction x a.working j = some k) : ¬k ≤ p.zero := by
  intro hle
  have hmem : j ∈ s.newlyFixed := by
    rw [h.newlyFixed]
    exact List.mem_filter.mpr ⟨hj, onBound_iff.mpr ⟨k, hk, hle⟩⟩
  rw [hnone] at hmem
  cases hmem

theorem untouched (hany : s.step.any (· ≤ p.zero) = false) : s.newlyFixed = [] ∧ s.activeSet = a := by
  have hnone : s.newlyFixed = [] := by
    apply Classical.byContradiction
    intro hsome
    obtain ⟨v, hv, hle⟩ := h.step hsome
    rw [hv, Option.any_some, decide_eq_false_iff_not] at hany
    exact hany hle
  rw [h.activeSet, hnone]
  exact ⟨rfl, rfl⟩

theorem heading_eq (hi : i ∉ done) : heading s.activeSet.working p.epsilon direction[i] i =
    heading a.working p.epsilon direction[i] i ∧ s.x[i] = x[i] := by
  have hmem : i ∉ s.newlyFixed := by
    rw [h.newlyFixed]
    exact fun hmem => hi (List.mem_filter.mp hmem).1
  have hbound : ∀ t, s.activeSet.working.bound i t = a.working.bound i t := by
    intro t
    rw [h.activeSet, ActiveSet.working_fixEach, if_neg (fun hand => hmem hand.1)]
  constructor
  . unfold heading
    rw [hbound, hbound]
  . exact h.unmoved i hmem

theorem fixAtStart {v : α} (hh : heading a.working p.epsilon direction[i] i = some (side i, v))
    (hzero : 0 ≤ p.zero)
    (hr : (v - x[i]) / direction[i] ≤ p.zero) :
    Reach.Settles p direction x a side (done ++ [i])
      { s with
        step := some 0
        x := s.x.set i v i.isLt
        activeSet := s.activeSet.fix i (side i)
        newlyFixed := s.newlyFixed ++ [i] } := by
  have hon : onBound p direction x a.working i = true := by
    apply onBound_iff.mpr
    unfold boundStep?
    rw [hh]
    exact ⟨_, rfl, hr⟩
  constructor
  . rw [List.filter_append, ← h.newlyFixed, List.filter_singleton, hon]
    rfl
  . rw [ActiveSet.fixEach_append_singleton, ← h.activeSet]
  . intro j hj
    rw [getElem_set]
    split
    . next hij =>
      subst hij
      exact bound_of_heading hh
    . next hij =>
      rw [List.mem_append, List.mem_singleton, or_iff_left (Ne.symm hij)] at hj
      exact h.sits j hj
  . intro j hj
    rw [List.mem_append, List.mem_singleton, not_or] at hj
    rw [getElem_set, if_neg (Ne.symm hj.2)]
    exact h.unmoved j hj.1
  . intro _
    exact ⟨0, rfl, hzero⟩
  . simp

theorem skip (hlt : ∀ j ∈ done, j < i) (hoff : onBound p direction x a.working i = false)
    (hk : ∀ k, boundStep? p direction x a.working i = some k → below k s.step = false) :
    Reach.Settles p direction x a side (done ++ [i]) s := by
  refine ⟨?_, h.activeSet, h.sits, h.unmoved, h.step, fun hnone => (h.limit hnone).skip hlt hk⟩
  rw [List.filter_append, ← h.newlyFixed, List.filter_singleton, hoff]
  simp

variable [Scalar.Strict α]

theorem limitBy (hp : 0 < p.zero) {k : α} (hk : boundStep? p direction x a.working i = some k)
    (hr : ¬k ≤ p.zero) (hbelow : below k s.step = true) :
    Reach.Settles p direction x a side (done ++ [i]) { s with step := some k, blocking := some i } := by
  have hoff : onBound p direction x a.working i = false := by
    unfold onBound
    rw [hk, Option.any_some, decide_eq_false hr]
  have hnone : s.newlyFixed = [] := by
    apply Classical.byContradiction
    intro hsome
    -- Once a variable is fixed the step is zero, and no other one shortens it.
    obtain ⟨v, hv, hle⟩ := h.step hsome
    rw [hv] at hbelow
    exact hr (Scalar.Lawful.le_trans (Scalar.le_of_lt (of_decide_eq_true hbelow)) hle)
  refine ⟨?_, h.activeSet, h.sits, h.unmoved, fun hsome => absurd hnone hsome, fun _ => ?_⟩
  . rw [List.filter_append, ← h.newlyFixed, List.filter_singleton, hoff]
    simp
  . exact (h.limit hnone).shorten hp (fun j hj k hk => h.not_le hnone hj hk) hk hr hbelow

end Reach.Settles

variable [Scalar.Strict α] {L : Event α n → Prop} {E : Error α → Prop} (hnote : ∀ m, L (.note m))
  (hp : 0 < p.zero)
  (hside : ∀ i s v, heading a.working p.epsilon direction[i] i = some (s, v) → s = side i)
include hnote hp hside

theorem Reach.look_settles {done : List (Fin n)} {s : Reach α n} (h : s.Settles p direction x a side done)
    {i : Fin n} (hlt : ∀ j ∈ done, j < i) :
    (Reach.look p direction s i).Meets L E (Reach.Settles p direction x a side (done ++ [i])) := by
  have hi : i ∉ done := fun hmem => Nat.lt_irrefl i (hlt i hmem)
  obtain ⟨hheading, hx⟩ := h.heading_eq hi
  unfold Reach.look
  rw [hheading, hx]
  split
  . next hnone =>
    have hk : boundStep? p direction x a.working i = none := by
      unfold boundStep?
      rw [hnone, Option.map_none]
    apply Logged.meets_pure
    apply h.skip hlt
    . unfold onBound
      rw [hk, Option.any_none]
    . intro k hk'
      rw [hk] at hk'
      cases hk'
  . next t v hh =>
    have hk : boundStep? p direction x a.working i = some ((v - x[i]) / direction[i]) := by
      unfold boundStep?
      rw [hh, Option.map_some]
    dsimp only
    split
    . next hr =>
      apply meets_note_bind (hnote _)
      apply Logged.meets_pure
      obtain rfl := hside i t v hh
      exact h.fixAtStart hh (Scalar.le_of_lt hp) hr
    . next hr =>
      split
      . next hbelow => exact Logged.meets_pure (h.limitBy hp hk hr hbelow)
      . next hbelow =>
        apply Logged.meets_pure
        apply h.skip hlt
        . unfold onBound
          rw [hk, Option.any_some, decide_eq_false hr]
        . intro k hk'
          rw [hk, Option.some.injEq] at hk'
          rw [← hk', Bool.eq_false_iff]
          exact hbelow

theorem reach_settles :
    (reach p direction x a a.free).Meets L E (Reach.Settles p direction x a side a.free) := by
  unfold reach
  have hloop := Logged.meets_foldlM (L := L) (E := E) (f := Reach.look p direction)
    (Reach.Settles p direction x a side) a.free []
    { step := none, blocking := none, x, activeSet := a, newlyFixed := [] }
  apply hloop
  . exact ⟨rfl, rfl, nofun, fun _ _ => rfl, fun h => absurd rfl h, fun _ => .unlimited nofun⟩
  . intro before i after s hsplit hs
    have hsorted : a.free.Pairwise (· < ·) := pairwise_unmasked a.fixed
    rw [List.nil_append] at hsplit
    rw [hsplit, List.pairwise_append] at hsorted
    exact Reach.look_settles hnote hp hside hs fun j hj => hsorted.2.2 j hj i List.mem_cons_self

omit hnote hp hside in
theorem Ray.IsFrom.isLimitedBy {r : Ray α n} {problem : Problem α n} {parameters : Parameters α} {f maxNorm : α}
    {grad d : Vector α n} (hr : r.IsFrom problem parameters a x f grad d maxNorm)
    (hzero : 0 < parameters.precision.zero) : r.activeSet = a ∧ r.newlyFixed = [] ∧
      (∀ i ∈ a.free, onBound parameters.precision r.direction x a.working i = false) ∧
      IsLimitedBy (boundStep? parameters.precision r.direction x a.working) a.free r.reach r.blocking := by
  obtain ⟨s, hs, hany, hreach, hblocking, hactiveSet, hnewlyFixed⟩ := hr.reach
  have hsettles := (reach_settles (L := fun _ => True) (E := fun _ => True) (fun _ => trivial) hzero
    eq_sideAhead).value s hs
  obtain ⟨hnone, hactive⟩ := hsettles.untouched hany
  rw [hreach, hblocking, hactiveSet, hnewlyFixed]
  refine ⟨hactive, hnone, ?_, hsettles.limit hnone⟩
  have hfilter := hsettles.newlyFixed
  rw [hnone, eq_comm, List.filter_eq_nil_iff] at hfilter
  intro i hi
  rw [Bool.eq_false_iff]
  exact hfilter i hi

end Settles

end BoxDescent.LineSearch

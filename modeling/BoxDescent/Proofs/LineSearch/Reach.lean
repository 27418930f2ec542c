import BoxDescent.LineSearch.Search
import BoxDescent.Proofs.ActiveSet
import BoxDescent.Proofs.Logged

/-!
This module contains what looking for the longest feasible step does to an active set: either some
variables were on the bounds they head into and are held there now, or nothing has changed and the
variable that limits the step is free.
-/

namespace BoxDescent

namespace Event

variable {α : Type} [Scalar α] {n : Nat}

def Inside (b : Bounds α n) : Event α n → Prop
  | .objective x _ => b.Contains x
  | .gradient x _ => b.Contains x
  | .hessianRow x _ => b.Contains x
  | .note _ => True

end Event

namespace LineSearch

variable {α : Type} [Scalar α] {n : Nat}

def boundStep? (p : Precision α) (direction x : Vector α n) (working : Bounds α n) (i : Fin n) : Option α :=
  (heading working p.epsilon direction[i] i).map fun h => (h.2 - x[i]) / direction[i]

def towards (d : α) : Side :=
  if d > 0 then .upper else .lower

theorem bound_of_heading {working : Bounds α n} {epsilon d : α} {i : Fin n} {side : Side} {v : α}
    (h : heading working epsilon d i = some (side, v)) : working.bound i side = some v := by
  unfold heading at h
  split at h
  . next l hl =>
    rw [Option.some.injEq, Prod.mk.injEq] at h
    rw [← h.1, ← h.2]
    split at hl
    . exact hl
    . cases hl
  . split at h
    . next u hu =>
      rw [Option.some.injEq, Prod.mk.injEq] at h
      rw [← h.1, ← h.2]
      split at hu
      . exact hu
      . cases hu
    . cases h

theorem direction_of_heading {working : Bounds α n} {epsilon d : α} {i : Fin n} {side : Side} {v : α}
    (h : heading working epsilon d i = some (side, v)) :
    side = .lower ∧ d < -epsilon ∨ side = .upper ∧ epsilon < d := by
  unfold heading at h
  split at h
  . next l hl =>
    rw [Option.some.injEq, Prod.mk.injEq] at h
    split at hl
    . next hd => exact Or.inl ⟨h.1.symm, hd⟩
    . cases hl
  . split at h
    . next u hu =>
      rw [Option.some.injEq, Prod.mk.injEq] at h
      split at hu
      . next hd => exact Or.inr ⟨h.1.symm, hd⟩
      . cases hu
    . cases h

section

variable [Scalar.Lawful α]

theorem towards_of_heading {working : Bounds α n} {epsilon d : α} {i : Fin n} {side : Side} {v : α}
    (he : 0 < epsilon) (h : heading working epsilon d i = some (side, v)) : towards d = side := by
  unfold towards
  cases direction_of_heading h with
  | inl hd =>
    rw [hd.1, if_neg]
    intro hpos
    have hneg := Scalar.lt_of_lt_of_le hd.2 (Scalar.Lawful.neg_nonpos (Scalar.le_of_lt he))
    exact Scalar.not_le_of_lt hneg (Scalar.le_of_lt hpos)
  | inr hd =>
    rw [hd.1, if_pos]
    exact Scalar.lt_of_lt_of_le he (Scalar.le_of_lt hd.2)

theorem ne_zero_of_heading {working : Bounds α n} {epsilon d : α} {i : Fin n} {side : Side} {v : α}
    (he : 0 < epsilon) (h : heading working epsilon d i = some (side, v)) : d ≠ 0 := by
  intro hd
  cases direction_of_heading h with
  | inl hneg =>
    rw [hd] at hneg
    exact Scalar.lt_irrefl (Scalar.lt_of_lt_of_le hneg.2 (Scalar.Lawful.neg_nonpos (Scalar.le_of_lt he)))
  | inr hgt =>
    rw [hd] at hgt
    exact Scalar.lt_irrefl (Scalar.lt_of_lt_of_le he (Scalar.le_of_lt hgt.2))

theorem exists_bound_of_boundStep? {p : Precision α} {direction x : Vector α n} {working : Bounds α n}
    {i : Fin n} {k : α} (he : 0 < p.epsilon) (h : boundStep? p direction x working i = some k) :
    ∃ v, working.bound i (towards direction[i]) = some v := by
  unfold boundStep? at h
  rw [Option.map_eq_some_iff] at h
  obtain ⟨⟨side, v⟩, hheading, _⟩ := h
  rw [towards_of_heading he hheading]
  exact ⟨v, bound_of_heading hheading⟩

theorem le_self_of_ratio {v x d : α} (h : (v - x) / d ≤ (v - x) / d) : x ≤ x := by
  -- An undefined `x` would make the quotient undefined, and then it would not even equal itself.
  apply Classical.byContradiction
  intro hx
  exact Scalar.Lawful.div_undefined (Scalar.Lawful.sub_undefined hx) h

theorem le_self_of_below {step : α} {limit : Option α} (h : below step limit = true) : step ≤ step := by
  cases limit with
  | none => exact Scalar.Lawful.le_self_of_isFinite h
  | some limit =>
    simp only [below, decide_eq_true_eq] at h
    exact Scalar.Lawful.le_self_left (Scalar.le_of_lt h)

end

namespace Reach

structure Untouched (p : Precision α) (direction x : Vector α n) (a : ActiveSet α n) (s : Reach α n) :
    Prop where
  point : s.x = x
  activeSet : s.activeSet = a
  newlyFixed : s.newlyFixed = []
  step : ∀ v, s.step = some v → ¬v ≤ p.zero
  blocking : ∀ j, s.blocking = some j → a.fixed[j] = false ∧ x[j] ≤ x[j] ∧
    ∃ side v, heading a.working p.epsilon direction[j] j = some (side, v)

/-- What holds once the variables `done` were looked at. -/
structure Keeps (b : Bounds α n) (p : Precision α) (direction x : Vector α n) (a : ActiveSet α n)
    (done : List (Fin n)) (s : Reach α n) : Prop where
  holds : s.activeSet.Holds b (a.indices ++ s.newlyFixed) s.x
  indices : s.activeSet.indices = a.indices ++ s.newlyFixed
  separates : b.Separates s.x
  unseen : ∀ i : Fin n, i ∉ done → s.activeSet.fixed[i] = a.fixed[i]
  phase : (∃ v, s.step = some v ∧ v ≤ p.zero) ∧ s.newlyFixed ≠ [] ∨ s.Untouched p direction x a

variable [Scalar.Lawful α] {b : Bounds α n} {p : Precision α} {direction x : Vector α n}
  {a : ActiveSet α n} {E : Error α → Prop}

theorem Keeps.fixAtStart (hb : b.crossed = false) {done : List (Fin n)} {s : Reach α n} {i : Fin n}
    (h : s.Keeps b p direction x a done) (hp : p.Positive) (hi : i ∉ done) (hfree : a.fixed[i] = false)
    {side : Side} {v : α} (hh : heading s.activeSet.working p.epsilon direction[i] i = some (side, v))
    (hr : (v - s.x[i]) / direction[i] ≤ p.zero) :
    Keeps b p direction x a (done ++ [i])
      { s with
        step := some 0
        x := s.x.set i v i.isLt
        activeSet := s.activeSet.fix i side
        newlyFixed := s.newlyFixed ++ [i] } := by
  have hi' : s.activeSet.fixed[i] = false := (h.unseen i hi).trans hfree
  have hv : b.bound i side = some v := by
    rw [← h.holds.free i hi']
    exact bound_of_heading hh
  have hx := le_self_of_ratio (Scalar.Lawful.le_self_left hr)
  constructor
  . have hfix := h.holds.fix hb hi' hv
    rw [List.append_assoc] at hfix
    exact hfix
  . simp only [ActiveSet.fix, h.indices, List.append_assoc]
  . exact Bounds.separates_set h.separates hx v
  . intro j hj
    rw [List.mem_append, List.mem_singleton, not_or] at hj
    simp only [ActiveSet.fix, getElem_set]
    rw [if_neg (Ne.symm hj.2)]
    exact h.unseen j hj.1
  . refine Or.inl ⟨⟨0, rfl, Scalar.le_of_lt hp.zero⟩, ?_⟩
    simp

theorem Keeps.limit {done : List (Fin n)} {s : Reach α n} {i : Fin n}
    (h : s.Keeps b p direction x a done) (hfree : a.fixed[i] = false) {side : Side} {v : α}
    (hh : heading s.activeSet.working p.epsilon direction[i] i = some (side, v))
    (hr : ¬(v - s.x[i]) / direction[i] ≤ p.zero)
    (hb : below ((v - s.x[i]) / direction[i]) s.step = true) :
    Keeps b p direction x a (done ++ [i])
      { s with step := some ((v - s.x[i]) / direction[i]), blocking := some i } := by
  constructor
  . exact h.holds
  . exact h.indices
  . exact h.separates
  . intro j hj
    rw [List.mem_append, not_or] at hj
    exact h.unseen j hj.1
  . cases h.phase with
    | inl hstep =>
      -- Once a variable was fixed at the start, no later one limits the step further.
      obtain ⟨⟨w, hw, hwz⟩, _⟩ := hstep
      rw [hw] at hb
      simp only [below, decide_eq_true_eq] at hb
      exact absurd (Scalar.Lawful.le_trans (Scalar.le_of_lt hb) hwz) hr
    | inr hun =>
      refine Or.inr ⟨hun.point, hun.activeSet, hun.newlyFixed, ?_, ?_⟩
      . intro w hw
        rw [Option.some.injEq] at hw
        rw [← hw]
        exact hr
      intro j hj
      rw [Option.some.injEq] at hj
      subst hj
      have hx := le_self_of_ratio (le_self_of_below hb)
      rw [hun.point] at hx
      rw [hun.activeSet] at hh
      exact ⟨hfree, hx, side, v, hh⟩

omit [Scalar.Lawful α] in
theorem Keeps.skip {done : List (Fin n)} {s : Reach α n} (h : s.Keeps b p direction x a done)
    (i : Fin n) : Keeps b p direction x a (done ++ [i]) s := by
  refine ⟨h.holds, h.indices, h.separates, ?_, h.phase⟩
  intro j hj
  rw [List.mem_append, not_or] at hj
  exact h.unseen j hj.1

theorem look_meets (hb : b.crossed = false) (hp : p.Positive) {done : List (Fin n)} {s : Reach α n}
    {i : Fin n} (h : s.Keeps b p direction x a done) (hi : i ∉ done) (hfree : a.fixed[i] = false) :
    (Reach.look p direction s i).Meets (Event.Inside b) E (Keeps b p direction x a (done ++ [i])) := by
  unfold Reach.look
  split
  . exact Logged.meets_pure (h.skip i)
  . next side v hh =>
    dsimp only
    split
    . next hr =>
      apply meets_note_bind trivial
      exact Logged.meets_pure (h.fixAtStart hb hp hi hfree hh hr)
    . next hr =>
      split
      . next hbelow => exact Logged.meets_pure (h.limit hfree hh hr hbelow)
      . exact Logged.meets_pure (h.skip i)

end Reach

theorem reach_meets [Scalar.Lawful α] {b : Bounds α n} {p : Precision α} {x : Vector α n}
    {a : ActiveSet α n} {E : Error α → Prop} (hb : b.crossed = false) (hp : p.Positive)
    (ha : a.Holds b a.indices x) (hsep : b.Separates x) (direction : Vector α n) :
    (reach p direction x a a.free).Meets (Event.Inside b) E
      (Reach.Keeps b p direction x a a.free) := by
  unfold reach
  have hloop := Logged.meets_foldlM (L := Event.Inside b) (E := E) (f := Reach.look p direction)
    (Reach.Keeps b p direction x a) a.free []
    { step := none, blocking := none, x, activeSet := a, newlyFixed := [] }
  apply hloop
  . constructor
    . rw [List.append_nil]
      exact ha
    . rw [List.append_nil]
    . exact hsep
    . intro _ _
      rfl
    . refine Or.inr ⟨rfl, rfl, rfl, ?_, ?_⟩
      . intro v hv
        exact nomatch hv
      . intro j hj
        exact nomatch hj
  . intro before i after s hsplit hs
    rw [List.nil_append] at hsplit
    have hnodup := a.nodup_free
    rw [hsplit] at hnodup
    have hi : i ∉ before := by
      intro hmem
      exact (List.nodup_append.mp hnodup).2.2 i hmem i List.mem_cons_self rfl
    have hfree : a.fixed[i] = false := by
      rw [← ActiveSet.mem_free, hsplit]
      simp
    exact Reach.look_meets hb hp hs hi hfree

end LineSearch

end BoxDescent

import BoxDescent.Proofs.LineSearch.Reach
import BoxDescent.Proofs.LineSearch.Stage

/-!
This module contains what a line search does to an active set, whatever the objective and its gradient
answer and however the arithmetic rounds: it only looks at points inside the box, and the variables that
it fixes sit on bounds of the box afterwards (`search_meets`).
-/

namespace BoxDescent

def Error.isOffBounds {α : Type} : Error α → Bool
  | .breakdown (.offBounds ..) => true
  | _ => false

variable {α : Type} [Scalar α] {n : Nat} {b : Bounds α n}

namespace Problem

variable {E : Error α → Prop} (hE : ∀ e, E (.fault e)) (p : Problem α n) {x : Vector α n}
include hE

theorem evalObjective_meets (hx : b.Contains x) :
    (p.evalObjective x).Meets (Event.Inside b) E fun _ => True := by
  unfold evalObjective
  split
  . constructor
    . simpa [Event.Inside] using hx
    . simp
    . simp
  . exact Logged.meets_fail (hE _)

theorem evalGradient_meets (hx : b.Contains x) :
    (p.evalGradient x).Meets (Event.Inside b) E fun _ => True := by
  unfold evalGradient
  split
  . constructor
    . simpa [Event.Inside] using hx
    . simp
    . simp
  . constructor
    . simpa [Event.Inside] using hx
    . intro e he
      cases he
      exact hE _
    . simp
  . exact Logged.meets_fail (hE _)

theorem evalHessianRow_meets (hx : b.Contains x) (i : Fin n) :
    (p.evalHessianRow x i).Meets (Event.Inside b) E fun _ => True := by
  unfold evalHessianRow
  split
  . exact Logged.meets_pure trivial
  . split
    . constructor
      . simpa [Event.Inside] using hx
      . simp
      . simp
    . exact Logged.meets_fail (hE _)

end Problem

namespace LineSearch

variable {r : Ray α n}

theorem runStages_meets (hr : ∀ step, b.Contains (r.point step)) (fuel : Nat) {s : Stage α}
    (hs : r.Reaches s) : (runStages r fuel s).Meets (Event.Inside b) (·.isOfSearch = true) fun _ => True := by
  have hslope : ∀ step, (r.slopeAt step).Meets (Event.Inside b) (·.isOfSearch = true) fun _ => True := by
    intro step
    unfold Ray.slopeAt
    apply Logged.Meets.bind (Problem.evalGradient_meets (fun _ => rfl) r.problem (hr step))
    intro g _
    exact Logged.meets_pure trivial
  apply (runStages_reaches (fun _ => trivial) (fun _ h => h) _ _ fuel hs).imp fun _ _ => trivial
  . intro step
    exact ((hslope step).withValue (Ray.slopeAt_hasSlope r.problem.tolerates_true step)).imp
      fun _ h => h.2
  . intro s _
    exact ((Problem.evalObjective_meets (fun _ => rfl) r.problem (hr s.step)).withValue
      (Ray.valueAt_hasValue r.problem.tolerates_true s.step)).imp fun _ h => h.2

structure Ray.Keeps (r : Ray α n) (b : Bounds α n) : Prop where
  holds : r.activeSet.Holds b r.activeSet.indices r.origin
  separates : b.Separates r.origin
  fixed : r.fixed = r.activeSet.fixed
  newlyFixed : r.newlyFixed = []
  blocking : ∀ j, r.blocking = some j → r.fixed[j] = false ∧ r.origin[j] ≤ r.origin[j] ∧
    ∃ v, b.bound j (towards r.direction[j]) = some v

variable [Scalar.Lawful α]

namespace Ray.Keeps

theorem contains_point (h : r.Keeps b) (hb : b.crossed = false) (step : α) :
    b.Contains (r.point step) := by
  intro i
  cases hi : r.fixed[i] with
  | true =>
    rw [point_of_fixed hi]
    exact h.holds.contains i
  | false =>
    have hfree := h.holds.free i (h.fixed ▸ hi)
    have hclip : ∀ x, r.activeSet.working.clip i x = b.clip i x := by
      intro x
      rw [Bounds.clip_eq, Bounds.clip_eq, hfree, hfree]
    rw [point_of_free hi, hclip]
    exact ⟨fun l hl => Bounds.not_clip_lt hb hl, fun u hu => Bounds.not_lt_clip hu⟩

theorem separates_point (h : r.Keeps b) (step : α) : b.Separates (r.point step) := by
  intro i l u hl hu hi
  apply h.separates i l u hl hu
  apply Classical.byContradiction
  intro hx
  cases hfixed : r.fixed[i] with
  | true =>
    rw [point_of_fixed hfixed] at hi
    exact hx hi
  | false =>
    have hsum := Scalar.Lawful.add_undefined (b := step * r.direction[i]) hx
    rw [point_of_free hfixed, Bounds.clip_undefined hsum] at hi
    exact hsum hi

theorem holds_point (h : r.Keeps b) (hb : b.crossed = false) (step : α) :
    r.activeSet.Holds b r.activeSet.indices (r.point step) := by
  apply h.holds.move (h.contains_point hb step)
  intro i hi
  rw [← h.fixed] at hi
  exact point_of_fixed hi step

end Ray.Keeps

end LineSearch

/-- What the result of a search from `x` with the active set `a` leaves behind. -/
structure SearchResult.Keeps (s : SearchResult α n) (b : Bounds α n) (a : ActiveSet α n)
    (x : Vector α n) : Prop where
  holds : s.activeSet.Holds b s.activeSet.indices s.x
  separates : b.Separates s.x
  indices : s.activeSet.indices = a.indices ++ s.newlyFixed
  zeroStep : s.status = .zeroStep → s.newlyFixed ≠ []
  unmoved : s.status = .stationary ∨ s.status = .noProgress → s.x = x ∧ s.activeSet = a

namespace LineSearch

variable {r : Ray α n} {E : Error α → Prop}

theorem orient_meets (zero : α) (fixed : Vector Bool n) (f : α) (grad direction : Vector α n)
    (maxNorm : α) :
    (orient zero fixed f grad direction maxNorm).Meets (Event.Inside b) (·.isOfSearch = true)
      fun _ => True := by
  unfold orient
  apply meets_note_bind trivial
  dsimp only
  split
  . exact meets_note_bind trivial (Logged.meets_pure trivial)
  . split
    . exact Logged.meets_fail rfl
    . exact Logged.meets_pure trivial

theorem Heading.minStep?_meets (h : Heading α n) (parameters : Parameters α) (fixed : Vector Bool n)
    (x : Vector α n) :
    (h.minStep? parameters fixed x).Meets (Event.Inside b) E fun _ => True := by
  unfold Heading.minStep?
  dsimp only
  split
  . exact meets_note_bind trivial (Logged.meets_pure trivial)
  . exact Logged.meets_pure trivial

theorem Heading.keeps_stay (h : Heading α n) {a : ActiveSet α n} {x : Vector α n}
    (ha : a.Holds b a.indices x) (hsep : b.Separates x) (f : α) : (h.stay a x f).Keeps b a x := by
  refine ⟨ha, hsep, ?_, nofun, fun _ => ⟨rfl, rfl⟩⟩
  simp [Heading.stay]

variable [Scalar.Lawful α]

theorem Ray.Keeps.fixBlocking_meets (h : r.Keeps b) (hb : b.crossed = false) (step : α) :
    (r.fixBlocking step (r.point step)).Meets (Event.Inside b) E fun s =>
      s.2.1.Holds b s.2.1.indices s.1 ∧ b.Separates s.1 ∧
        s.2.1.indices = r.activeSet.indices ++ s.2.2 := by
  have hstay : r.activeSet.Holds b r.activeSet.indices (r.point step) ∧
      b.Separates (r.point step) ∧ r.activeSet.indices = r.activeSet.indices ++ r.newlyFixed := by
    rw [h.newlyFixed, List.append_nil]
    exact ⟨h.holds_point hb step, h.separates_point step, rfl⟩
  unfold Ray.fixBlocking
  split
  . exact Logged.meets_pure hstay
  . next i hi =>
    split
    . exact Logged.meets_pure hstay
    . apply meets_note_bind trivial
      apply Logged.meets_pure
      obtain ⟨hfree, hself, v, hv⟩ := h.blocking i hi
      have hfree' : r.activeSet.fixed[i] = false := h.fixed ▸ hfree
      have hw : r.activeSet.working.bound i (towards r.direction[i]) = some v := by
        rw [h.holds.free i hfree']
        exact hv
      dsimp only
      have hgetD : (r.activeSet.working.bound i
          (if r.direction[i] > 0 then Side.upper else Side.lower)).getD Scalar.undefined = v := by
        show (r.activeSet.working.bound i (towards r.direction[i])).getD Scalar.undefined = v
        rw [hw, Option.getD_some]
      rw [hgetD, h.newlyFixed]
      refine ⟨(h.holds_point hb step).fix hb hfree' hv, ?_, rfl⟩
      -- The blocking variable is defined at the origin, so its two bounds differ.
      intro j l u hl hu hj
      rw [getElem_set] at hj
      split at hj
      . next hij =>
        subst hij
        exact h.separates i l u hl hu hself
      . exact h.separates_point step j l u hl hu hj

theorem Ray.Keeps.finish_meets (h : r.Keeps b) (hb : b.crossed = false) (ending : Ending α) :
    (r.finish ending).Meets (Event.Inside b) E (·.Keeps b r.activeSet r.origin) := by
  cases ending with
  | noProgress =>
    apply Logged.meets_pure
    refine ⟨h.holds, h.separates, ?_, nofun, fun _ => ⟨rfl, rfl⟩⟩
    rw [h.newlyFixed, List.append_nil]
  | accepted step value =>
    apply Logged.Meets.bind (h.fixBlocking_meets hb step)
    intro s hs
    apply Logged.meets_pure
    exact ⟨hs.1, hs.2.1, hs.2.2, nofun, by simp⟩

theorem Ray.Keeps.search_meets (h : r.Keeps b) (hb : b.crossed = false) (fuel : Nat) :
    (r.search fuel).Meets (Event.Inside b) (·.isOfSearch = true)
      (·.Keeps b r.activeSet r.origin) := by
  unfold Ray.search
  apply meets_note_bind trivial
  apply Logged.Meets.bind (runStages_meets (h.contains_point hb) fuel .first)
  intro ending _
  exact h.finish_meets hb ending

theorem Heading.ray_meets (h : Heading α n) (problem : Problem α n) {parameters : Parameters α}
    (hp : parameters.precision.Positive) {a : ActiveSet α n} {x : Vector α n} (f minStep : α)
    {done : List (Fin n)} {s : Reach α n}
    (hs : s.Keeps b parameters.precision h.direction x a done) :
    (h.ray problem parameters a.fixed x f minStep s).Meets (Event.Inside b) E fun
      | .inl r => r.Keeps b ∧ r.activeSet = a ∧ r.origin = x
      | .inr halted => halted.Keeps b a x := by
  unfold Heading.ray
  apply meets_note_bind trivial
  split
  . next hzero =>
    apply meets_note_bind trivial
    apply Logged.meets_pure
    refine ⟨?_, hs.separates, hs.indices, ?_, ?_⟩
    . show s.activeSet.Holds b s.activeSet.indices s.x
      rw [hs.indices]
      exact hs.holds
    . intro _
      -- The step is zero only because a variable was fixed at the start.
      cases hs.phase with
      | inl hfix => exact hfix.2
      | inr hun =>
        rw [Option.any_eq_true] at hzero
        obtain ⟨v, hv, hle⟩ := hzero
        exact absurd (of_decide_eq_true hle) (hun.step v hv)
    . simp
  . next hzero =>
    apply Logged.meets_pure
    cases hs.phase with
    | inl hfix =>
      obtain ⟨⟨v, hv, hle⟩, _⟩ := hfix
      rw [hv] at hzero
      exact absurd (decide_eq_true hle) hzero
    | inr hun =>
      refine ⟨⟨?_, ?_, ?_, hun.newlyFixed, ?_⟩, hun.activeSet, rfl⟩
      . rw [hs.indices, ← hun.point]
        exact hs.holds
      . rw [← hun.point]
        exact hs.separates
      . rw [hun.activeSet]
      . intro j hj
        obtain ⟨hfree, hself, side, v, hv⟩ := hun.blocking j hj
        refine ⟨hfree, hself, v, ?_⟩
        rw [towards_of_heading hp.epsilon hv]
        have hw := bound_of_heading hv
        rw [← hun.activeSet, hs.holds.free j (hun.activeSet ▸ hfree)] at hw
        exact hw

section Search

variable {parameters : Parameters α} (hb : b.crossed = false) (hp : parameters.precision.Positive)
  {a : ActiveSet α n} {x : Vector α n} (ha : a.Holds b a.indices x) (hsep : b.Separates x)
  (problem : Problem α n) (f : α) (grad direction : Vector α n) (maxNorm : α)
include hb hp ha hsep

theorem aim_meets :
    (aim problem parameters a x f grad direction maxNorm).Meets (Event.Inside b) (·.isOfSearch = true) fun
      | .inl r => r.Keeps b ∧ r.activeSet = a ∧ r.origin = x
      | .inr halted => halted.Keeps b a x := by
  unfold aim
  apply Logged.Meets.bind (orient_meets _ _ _ _ _ _)
  intro oriented _
  obtain ⟨heading, descends⟩ := oriented
  dsimp only
  split
  . exact Logged.meets_pure (heading.keeps_stay ha hsep f)
  . apply Logged.Meets.bind (heading.minStep?_meets _ _ _)
    intro minStep? _
    cases minStep? with
    | none => exact Logged.meets_pure (heading.keeps_stay ha hsep f)
    | some minStep =>
      apply Logged.Meets.bind (reach_meets hb hp ha hsep heading.direction)
      intro s hs
      exact heading.ray_meets problem hp f minStep hs

theorem search_meets (fuel : Nat) :
    (search fuel problem parameters a x f grad direction maxNorm).Meets (Event.Inside b)
      (·.isOfSearch = true) (·.Keeps b a x) := by
  unfold search
  apply Logged.Meets.bind (aim_meets hb hp ha hsep problem f grad direction maxNorm)
  intro aimed haimed
  cases aimed with
  | inl ray =>
    obtain ⟨hray, hactive, horigin⟩ := haimed
    rw [← hactive, ← horigin]
    exact hray.search_meets hb fuel
  | inr halted => exact Logged.meets_pure haimed

end Search

end LineSearch

end BoxDescent

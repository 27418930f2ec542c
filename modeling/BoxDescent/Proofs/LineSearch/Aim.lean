import BoxDescent.LineSearch.Search
import BoxDescent.Proofs.Logged
import BoxDescent.Proofs.Vector

/-!
This module contains what is settled before a line search tries its first step: either the search stays
where it is (`SearchResult.Halts`), or all of its ray is determined by what it was called with
(`Ray.IsFrom`).
-/

namespace BoxDescent

variable {α : Type} [Scalar α] {n : Nat}

structure SearchResult.Halts (r : SearchResult α n) (a : ActiveSet α n) (x : Vector α n) (f : α) :
    Prop where
  value : r.value = f
  status : r.status ≠ .accepted
  unmoved : r.status ≠ .zeroStep → r.x = x ∧ r.activeSet = a
  free : ∀ i : Fin n, r.activeSet.fixed[i] = false → r.x[i] = x[i]

structure SearchResult.IsAlong (r : SearchResult α n) (a : ActiveSet α n)
    (grad direction : Vector α n) (maxNorm : α) : Prop where
  direction : r.direction = (LineSearch.scale direction a.fixed maxNorm).direction
  slope : r.slope = dotOver a.free grad r.direction

namespace LineSearch

/-- The ray from `x`, where the objective is `f`, along a direction: what scales it and what limits it. -/
structure Ray.IsFrom (r : Ray α n) (problem : Problem α n) (parameters : Parameters α) (a : ActiveSet α n)
    (x : Vector α n) (f : α) (grad direction : Vector α n) (maxNorm : α) : Prop where
  problem_eq : r.problem = problem
  parameters_eq : r.parameters = parameters
  origin : r.origin = x
  value : r.value = f
  direction_eq : r.direction = (scale direction a.fixed maxNorm).direction
  maxStep : r.maxStep = (scale direction a.fixed maxNorm).maxStep
  fixed : r.fixed = a.fixed
  slope : r.slope = dotOver a.free grad r.direction
  steep : ¬Scalar.abs r.slope ≤ parameters.precision.zero
  descends : ¬r.slope > parameters.precision.zero
  moves : ¬relativeChange r.direction x a.free ≤ parameters.precision.zero
  minStep : r.minStep = parameters.displacementTolerance / relativeChange r.direction x a.free
  reach : ∃ s, (LineSearch.reach parameters.precision r.direction x a a.free).result = .ok s ∧
    s.step.any (· ≤ parameters.precision.zero) = false ∧ r.reach = s.step ∧ r.blocking = s.blocking ∧
    r.activeSet = s.activeSet ∧ r.newlyFixed = s.newlyFixed

structure Heading.Leads (h : Heading α n) (parameters : Parameters α) (a : ActiveSet α n)
    (x grad direction : Vector α n) (maxNorm : α) : Prop where
  direction_eq : h.direction = (scale direction a.fixed maxNorm).direction
  maxStep : h.maxStep = (scale direction a.fixed maxNorm).maxStep
  slope : h.slope = dotOver a.free grad h.direction
  steep : ¬Scalar.abs h.slope ≤ parameters.precision.zero
  descends : ¬h.slope > parameters.precision.zero
  moves : ¬relativeChange h.direction x a.free ≤ parameters.precision.zero

theorem Heading.Leads.aim_result {h : Heading α n} {parameters : Parameters α} {a : ActiveSet α n}
    {x grad direction : Vector α n} {maxNorm : α} (hleads : h.Leads parameters a x grad direction maxNorm)
    {s : Reach α n} (hreach : (reach parameters.precision h.direction x a a.free).result = .ok s)
    (problem : Problem α n) (f : α) :
    (aim problem parameters a x f grad direction maxNorm).result = (h.ray problem parameters a.fixed x f
      (parameters.displacementTolerance / relativeChange h.direction x a.free) s).result := by
  have hscale : dotOver (unmasked a.fixed) grad (scale direction a.fixed maxNorm).direction = h.slope := by
    rw [hleads.slope, hleads.direction_eq]
    rfl
  have horient : (orient parameters.precision.zero a.fixed f grad direction maxNorm).result =
      .ok (h, true) := by
    unfold orient
    rw [result_note_bind]
    dsimp only
    rw [hscale, if_neg hleads.steep, if_neg hleads.descends, ← hleads.direction_eq, ← hleads.maxStep]
    rfl
  have hminStep : (h.minStep? parameters a.fixed x).result =
      .ok (some (parameters.displacementTolerance / relativeChange h.direction x a.free)) := by
    have hmoves : ¬relativeChange h.direction x (unmasked a.fixed) ≤ parameters.precision.zero :=
      hleads.moves
    unfold Heading.minStep?
    dsimp only
    rw [if_neg hmoves]
    rfl
  unfold aim
  rw [Logged.result_bind_of_ok horient]
  dsimp only
  rw [if_neg (by decide), Logged.result_bind_of_ok hminStep]
  dsimp only
  rw [Logged.result_bind_of_ok hreach]

theorem Heading.Leads.search_result {h : Heading α n} {parameters : Parameters α} {a : ActiveSet α n}
    {x grad direction : Vector α n} {maxNorm : α} (hleads : h.Leads parameters a x grad direction maxNorm)
    {s : Reach α n} (hreach : (reach parameters.precision h.direction x a a.free).result = .ok s)
    (hany : s.step.any (· ≤ parameters.precision.zero) = true) (fuel : Nat) (problem : Problem α n) (f : α) :
    (search fuel problem parameters a x f grad direction maxNorm).result =
      .ok { h.stay s.activeSet s.x f with status := .zeroStep, newlyFixed := s.newlyFixed } := by
  have haim : (aim problem parameters a x f grad direction maxNorm).result =
      .ok (.inr { h.stay s.activeSet s.x f with status := .zeroStep, newlyFixed := s.newlyFixed }) := by
    rw [hleads.aim_result hreach]
    unfold Heading.ray
    rw [result_note_bind, if_pos hany, result_note_bind]
    rfl
  unfold search
  rw [Logged.result_bind_of_ok haim]
  rfl

theorem Heading.halts_stay (h : Heading α n) (a : ActiveSet α n) (x : Vector α n) (f : α) :
    (h.stay a x f).Halts a x f :=
  ⟨rfl, nofun, fun _ => ⟨rfl, rfl⟩, fun _ _ => rfl⟩

variable {L : Event α n → Prop} {E : Error α → Prop} (hnote : ∀ m, L (.note m))
include hnote

theorem reach_total (p : Precision α) (direction x : Vector α n) (a : ActiveSet α n) (is : List (Fin n)) :
    (reach p direction x a is).Meets L E fun s =>
      (reach p direction x a is).result = .ok s ∧
        ∀ i : Fin n, s.activeSet.fixed[i] = false → s.x[i] = x[i] := by
  have hloop := Logged.meets_foldlM (L := L) (E := E) (f := Reach.look p direction)
    (fun _ s => ∀ i : Fin n, s.activeSet.fixed[i] = false → s.x[i] = x[i]) is []
    { step := none, blocking := none, x, activeSet := a, newlyFixed := [] }
    (fun _ _ => rfl) fun _ i _ s _ hs => by
      unfold Reach.look
      split
      . exact Logged.meets_pure hs
      . dsimp only
        split
        . apply meets_note_bind (hnote _)
          apply Logged.meets_pure
          intro j hj
          dsimp only [ActiveSet.fix] at hj ⊢
          rw [getElem_set] at hj ⊢
          split at hj
          . cases hj
          . next hne =>
            rw [if_neg hne]
            exact hs j hj
        . split
          . exact Logged.meets_pure hs
          . exact Logged.meets_pure hs
  exact ⟨hloop.log, hloop.error, fun s hs => ⟨hs, hloop.value s hs⟩⟩

section Aim

variable {grad direction : Vector α n} {maxNorm : α}

theorem orient_isFrom {zero : α} {fixed : Vector Bool n}
    (hascent : dotOver (unmasked fixed) grad (scale direction fixed maxNorm).direction > zero → ∀ slope,
      E (.breakdown (.ascent slope))) (f : α) :
    (orient zero fixed f grad direction maxNorm).Meets L E fun out =>
      out.1.direction = (scale direction fixed maxNorm).direction ∧
      out.1.maxStep = (scale direction fixed maxNorm).maxStep ∧
      out.1.slope = dotOver (unmasked fixed) grad out.1.direction ∧
      (out.2 = true → ¬Scalar.abs out.1.slope ≤ zero ∧ ¬out.1.slope > zero) ∧
      (out.2 = false → Scalar.abs out.1.slope ≤ zero) := by
  unfold orient
  apply meets_note_bind (hnote _)
  dsimp only
  split
  . next hflat =>
    apply meets_note_bind (hnote _)
    exact Logged.meets_pure ⟨rfl, rfl, rfl, nofun, fun _ => hflat⟩
  . next hsteep =>
    split
    . next hgt => exact Logged.meets_fail (hascent hgt _)
    . next hdescends => exact Logged.meets_pure ⟨rfl, rfl, rfl, fun _ => ⟨hsteep, hdescends⟩, nofun⟩

theorem Heading.minStep?_moves (h : Heading α n) (parameters : Parameters α) (fixed : Vector Bool n)
    (x : Vector α n) : (h.minStep? parameters fixed x).Meets L E fun
      | none => relativeChange h.direction x (unmasked fixed) ≤ parameters.precision.zero
      | some v => ¬relativeChange h.direction x (unmasked fixed) ≤ parameters.precision.zero ∧
        v = parameters.displacementTolerance / relativeChange h.direction x (unmasked fixed) := by
  unfold Heading.minStep?
  dsimp only
  split
  . next hstill => exact meets_note_bind (hnote _) (Logged.meets_pure hstill)
  . next hmoves => exact Logged.meets_pure ⟨hmoves, rfl⟩

theorem aim_isFrom {parameters : Parameters α} {a : ActiveSet α n}
    (hascent : dotOver a.free grad (scale direction a.fixed maxNorm).direction > parameters.precision.zero →
      ∀ slope, E (.breakdown (.ascent slope))) (problem : Problem α n) (x : Vector α n) (f : α) :
    (aim problem parameters a x f grad direction maxNorm).Meets L E fun
      | .inl r => r.IsFrom problem parameters a x f grad direction maxNorm
      | .inr halted => halted.Halts a x f ∧ halted.IsAlong a grad direction maxNorm := by
  unfold aim
  apply Logged.Meets.bind (orient_isFrom hnote hascent _)
  intro oriented horiented
  obtain ⟨heading, descends⟩ := oriented
  obtain ⟨hdirection, hmaxStep, hslope, hdescends, _⟩ := horiented
  dsimp only at hdirection hmaxStep hslope hdescends ⊢
  have hstay : (heading.stay a x f).Halts a x f ∧
      (heading.stay a x f).IsAlong a grad direction maxNorm :=
    ⟨heading.halts_stay a x f, hdirection, hslope⟩
  cases descends with
  | false => exact Logged.meets_pure hstay
  | true =>
    rw [if_neg (by decide)]
    obtain ⟨hsteep, hdescends⟩ := hdescends rfl
    apply Logged.Meets.bind (heading.minStep?_moves hnote _ _ _)
    intro minStep? hminStep
    cases minStep? with
    | none => exact Logged.meets_pure hstay
    | some minStep =>
      obtain ⟨hmoves, hminStep⟩ := hminStep
      apply Logged.Meets.bind (reach_total hnote _ _ _ _ _)
      intro s hs
      obtain ⟨hs, hfree⟩ := hs
      unfold Heading.ray
      apply meets_note_bind (hnote _)
      split
      . apply meets_note_bind (hnote _)
        exact Logged.meets_pure
          ⟨⟨rfl, nofun, fun h => absurd rfl h, hfree⟩, hdirection, hslope⟩
      . next hany =>
        apply Logged.meets_pure
        rw [Bool.not_eq_true] at hany
        exact ⟨rfl, rfl, rfl, rfl, hdirection, hmaxStep, rfl, hslope, hsteep, hdescends, hmoves, hminStep,
          s, hs, hany, rfl, rfl, rfl, rfl⟩

omit hnote in
theorem isFrom_of_aim {problem : Problem α n} {parameters : Parameters α} {a : ActiveSet α n} {x : Vector α n}
    {f : α} {r : Ray α n}
    (h : (aim problem parameters a x f grad direction maxNorm).result = .ok (.inl r)) :
    r.IsFrom problem parameters a x f grad direction maxNorm :=
  (aim_isFrom (L := fun _ => True) (E := fun _ => True) (fun _ => trivial) (fun _ _ => trivial) _ _ _).value _ h

theorem Ray.fixBlocking_total (r : Ray α n) (step : α) (y : Vector α n) :
    (r.fixBlocking step y).Meets L E fun s =>
      (r.fixBlocking step y).result = .ok s ∧ ∀ i : Fin n, s.2.1.fixed[i] = false → s.1[i] = y[i] := by
  have hmeets : (r.fixBlocking step y).Meets L E fun s =>
      ∀ i : Fin n, s.2.1.fixed[i] = false → s.1[i] = y[i] := by
    unfold Ray.fixBlocking
    split
    . exact Logged.meets_pure fun _ _ => rfl
    . next j _ =>
      split
      . exact Logged.meets_pure fun _ _ => rfl
      . apply meets_note_bind (hnote _)
        apply Logged.meets_pure
        intro i hi
        simp only [ActiveSet.fix, getElem_set] at hi
        split at hi
        . cases hi
        . next hne =>
          dsimp only
          rw [getElem_set, if_neg hne]
  exact ⟨hmeets.log, hmeets.error, fun s hs => ⟨hs, hmeets.value s hs⟩⟩

theorem Ray.finish_along (r : Ray α n) (ending : Ending α) : (r.finish ending).Meets L E
    fun s => s.direction = r.direction ∧ s.slope = r.slope := by
  cases ending with
  | noProgress => exact Logged.meets_pure ⟨rfl, rfl⟩
  | accepted step value =>
    apply Logged.Meets.bind (r.fixBlocking_total hnote _ _)
    intro _ _
    exact Logged.meets_pure ⟨rfl, rfl⟩

omit hnote in
theorem Ray.search_along (r : Ray α n) (fuel : Nat) : (r.search fuel).Meets (fun _ => True) (fun _ => True)
    fun s => s.direction = r.direction ∧ s.slope = r.slope := by
  unfold Ray.search
  apply meets_note_bind trivial
  apply Logged.Meets.bind (Logged.meets_self _)
  intro ending _
  exact r.finish_along (fun _ => trivial) ending

omit hnote in
theorem search_isAlong (fuel : Nat) (problem : Problem α n) (parameters : Parameters α)
    (a : ActiveSet α n) (x : Vector α n) (f : α) :
    (search fuel problem parameters a x f grad direction maxNorm).Meets (fun _ => True) (fun _ => True)
      (·.IsAlong a grad direction maxNorm) := by
  unfold search
  apply Logged.Meets.bind (aim_isFrom (fun _ => trivial) (fun _ _ => trivial) _ _ _)
  intro aimed haimed
  cases aimed with
  | inr halted => exact Logged.meets_pure haimed.2
  | inl r =>
    apply (r.search_along fuel).imp
    intro s hs
    constructor
    . rw [hs.1]
      exact haimed.direction_eq
    . rw [hs.1, hs.2]
      exact haimed.slope

end Aim

end LineSearch

end BoxDescent

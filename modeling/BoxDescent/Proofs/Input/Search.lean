import Mathlib.Data.List.TakeWhile
import BoxDescent.Input.Search
import BoxDescent.Proofs.Exact.Cliff
import BoxDescent.Proofs.Input.Held
import BoxDescent.Proofs.LineSearch.Effect

/-!
This module contains line searches on data that fit. They are the searches of `BoxDescent.LineSearch`
(`Held.search_eq`), so the active set that a caller holds changes as the result says, and it is left as it
was if there is an error.
-/

namespace BoxDescent

open LineSearch

variable {α : Type} [Scalar α] {n : Nat}

namespace LineSearch

def Heading.search (heading : Heading α n) (fuel : Nat) (problem : Problem α n) (parameters : Parameters α)
    (a : ActiveSet α n) (x : Vector α n) (f : α) : Run α n (SearchResult α n) := do
  match ← heading.minStep? parameters a.fixed x with
  | none => return heading.stay a x f
  | some minStep =>
    let s ← reach parameters.precision heading.direction x a a.free
    match ← heading.ray problem parameters a.fixed x f minStep s with
    | .inl ray => ray.search fuel
    | .inr halted => return halted

theorem search_eq_heading (fuel : Nat) (problem : Problem α n) (parameters : Parameters α)
    (a : ActiveSet α n) (x : Vector α n) (f : α) (grad direction : Vector α n) (maxNorm : α) :
    search fuel problem parameters a x f grad direction maxNorm =
      orient parameters.precision.zero a.fixed f grad direction maxNorm >>= fun out =>
        if !out.2 then pure (out.1.stay a x f) else out.1.search fuel problem parameters a x f := by
  unfold search aim
  rw [bind_assoc]
  apply bind_congr
  intro out
  obtain ⟨heading, descends⟩ := out
  dsimp only
  split
  . rw [pure_bind]
  . unfold Heading.search
    rw [bind_assoc]
    apply bind_congr
    intro minStep?
    cases minStep? with
    | none => rw [pure_bind]
    | some minStep => exact bind_assoc _ _ _

theorem Heading.ray_eq {heading : Heading α n} {problem : Problem α n} {parameters : Parameters α}
    {fixed : Vector Bool n} {x : Vector α n} {f minStep : α} {s : Reach α n} :
    (heading.ray problem parameters fixed x f minStep s).Meets (fun _ => True) (fun _ => False) fun
      | .inl r => r.direction = heading.direction ∧ r.activeSet = s.activeSet ∧
        r.newlyFixed = s.newlyFixed ∧ s.step.any (· ≤ parameters.precision.zero) = false
      | .inr halted => halted.direction = heading.direction := by
  unfold Heading.ray
  apply meets_note_bind trivial
  split
  . exact meets_note_bind trivial (Logged.meets_pure rfl)
  . next hany => exact Logged.meets_pure ⟨rfl, rfl, rfl, Bool.eq_false_iff.mpr hany⟩

theorem Heading.search_along (heading : Heading α n) (fuel : Nat) (problem : Problem α n)
    (parameters : Parameters α) (a : ActiveSet α n) (x : Vector α n) (f : α) :
    (heading.search fuel problem parameters a x f).Meets (fun _ => True) (fun _ => True)
      (·.direction = heading.direction) := by
  unfold Heading.search
  apply Logged.Meets.bind (Logged.meets_self _)
  intro minStep? _
  cases minStep? with
  | none => exact Logged.meets_pure rfl
  | some minStep =>
    apply Logged.Meets.bind (Logged.meets_self _)
    intro s _
    apply Logged.Meets.bind (heading.ray_eq.mono (fun _ h => h) (fun _ _ => trivial) fun _ h => h)
    intro aimed haimed
    cases aimed with
    | inl r => exact (r.search_along fuel).imp fun _ hs => hs.1.trans haimed.1
    | inr halted => exact Logged.meets_pure haimed

end LineSearch

namespace Held

def settle (h : Held α) : Except (Error α) (SearchResult α n) → Held α × Except (Error α) (Found α)
  | .ok s => (h.withActive s.activeSet s.newlyFixed, .ok (.ofResult s))
  | .error e => (h, .error e)

omit [Scalar α] in
theorem fitted?_ofArray (v : Vector α n) : fitted? n (.ofArray v.toArray) = some v := by
  unfold fitted?
  split
  . next h =>
    obtain ⟨rfl, _⟩ := h
    unfold sized?
    rw [dif_pos Array.size_empty, Option.some.injEq]
    exact vector_ext fun i => i.elim0
  . exact Grid.vector?_ofArray v

section Fits

variable {h : Held α} {a : ActiveSet α n} (hfits : h.Fits a)
include hfits

omit [Scalar α] in
theorem upperFault?_eq_none : h.upperFault? n = none := by
  unfold upperFault?
  dsimp only
  rw [hfits.size_upper, if_pos (Or.inl rfl)]

theorem headsPast_eq_false (working : Bounds α n) (epsilon : α) (direction : Vector α n) (i : Fin n) :
    h.headsPast working epsilon direction i = false := by
  have hsize : ¬h.upper.entries.size ≤ i.val := by
    rw [hfits.size_upper]
    exact Nat.not_le_of_lt i.isLt
  unfold headsPast
  rw [decide_eq_false hsize, Bool.and_false]

theorem searchRay_eq {r : Ray α n} (hactiveSet : r.activeSet = a) (hnewlyFixed : r.newlyFixed = [])
    (fuel : Nat) : h.searchRay fuel r = (r.search fuel).attempt >>= fun s => pure (h.settle s) := by
  unfold searchRay
  rw [upperFault?_eq_none hfits, hactiveSet, hnewlyFixed, hfits.withActive_self]
  apply bind_congr
  intro s
  cases s with
  | error e => rfl
  | ok s => rfl

variable [Scalar.Strict α] {parameters : Parameters α} (hp : 0 < parameters.precision.zero)
include hp

theorem searchHeading_eq (heading : Heading α n) (fuel : Nat) (problem : Problem α n) (x : Vector α n) (f : α) :
    h.searchHeading fuel problem parameters a x f heading =
      (heading.search fuel problem parameters a x f).attempt >>= fun s => pure (h.settle s) := by
  unfold searchHeading Heading.search
  apply Logged.bind_eq_attempt_bind
  . have hmoves := heading.minStep?_moves (L := fun _ => True) (E := fun _ => False) (fun _ => trivial)
      parameters a.fixed x
    exact hmoves.error
  . intro minStep? _
    cases minStep? with
    | none =>
      show pure (h, _) = (pure _ : Run α n _) >>= _
      rw [pure_bind]
      show _ = pure (h.withActive a [], _)
      rw [hfits.withActive_self]
    | some minStep =>
      have hahead : (a.free.takeWhile fun i =>
          !h.headsPast a.working parameters.precision.epsilon heading.direction i) = a.free := by
        rw [List.takeWhile_eq_self_iff]
        intro i _
        rw [headsPast_eq_false hfits]
        rfl
      have hsettles : (reach parameters.precision heading.direction x a a.free).Meets (fun _ => True)
          (fun _ => False) (Reach.Settles parameters.precision heading.direction x a
            (sideAhead parameters.precision heading.direction a.working) a.free) :=
        reach_settles (fun _ => trivial) hp eq_sideAhead
      dsimp only
      rw [hahead]
      apply Logged.bind_eq_attempt_bind hsettles.error
      intro s hs
      rw [if_neg (Nat.lt_irrefl _)]
      apply Logged.bind_eq_attempt_bind heading.ray_eq.error
      intro aimed haimed
      cases aimed with
      | inl r =>
        obtain ⟨_, hactiveSet, hnewlyFixed, hany⟩ := heading.ray_eq.value _ haimed
        obtain ⟨hnone, hactive⟩ := (hsettles.value s hs).untouched hany
        exact searchRay_eq hfits (hactiveSet.trans hactive) (hnewlyFixed.trans hnone) fuel
      | inr halted => rfl

end Fits

section Sized

variable [Scalar.Strict α] {h : Held α} {a : ActiveSet α h.size} (hfits : h.Fits a)
  {parameters : Parameters α}
include hfits

theorem search_eq (hp : 0 < parameters.precision.zero) (fuel : Nat) (problem : Problem α h.size)
    (x : Vector α h.size) (f : α) (grad direction : Vector α h.size) (maxNorm : α) :
    h.search fuel problem parameters x.toArray f (.ofArray grad.toArray) (.ofArray direction.toArray) maxNorm =
      (LineSearch.search fuel problem parameters a x f grad direction maxNorm).attempt >>= fun s =>
        pure (h.settle s) := by
  have hfixed : (h.fixed.toVector : Vector Bool h.size) = a.fixed := by
    apply Vector.toArray_inj.mp
    exact hfits.fixed
  have hdirection : ∀ d : Vector α h.size,
      (if h.size = 0 then (Grid.ofArray direction.toArray).entries else d.toArray) = d.toArray := by
    intro d
    split
    . next hsize =>
      apply Vector.toArray_inj.mpr
      apply vector_ext
      intro i
      have hi := i.isLt
      omega
    . rfl
  unfold Held.search
  dsimp only
  rw [fitted?_ofArray, fitted?_ofArray, hfixed, sized?_toArray, hfits.active?, search_eq_heading]
  dsimp only
  apply Logged.attempt_bind_eq_attempt_bind
  . intro out _
    obtain ⟨heading, descends⟩ := out
    dsimp only
    rw [hdirection]
    cases descends with
    | false =>
      show pure (h, _) = (pure _ : Run α h.size _) >>= _
      rw [pure_bind]
      show _ = pure (h.withActive a [], _)
      rw [hfits.withActive_self]
      rfl
    | true =>
      rw [if_neg (by decide), if_neg (by decide), searchHeading_eq hfits hp, bind_assoc]
      apply Logged.bind_congr_of_ok
      intro s hs
      rw [pure_bind]
      cases s with
      | error e => rfl
      | ok s =>
        have hresult : (heading.search fuel problem parameters a x f).result = .ok s := Except.ok.inj hs
        have halong := (heading.search_along fuel problem parameters a x f).value s hresult
        show pure (_, Except.ok { Found.ofResult s with direction := heading.direction.toArray }) = _
        rw [← halong]
        rfl
  . intro e
    rfl

/-- All that a search does to the point and to the active set that a caller holds, whatever the objective and
its gradient answer. An error leaves the active set as it was, and there is none if a variable is on the bound
that it heads into, past the tests for a stationary point. -/
theorem search_effect (hp : parameters.precision.Positive) (fuel : Nat) (problem : Problem α h.size)
    (x : Vector α h.size) (f : α) (grad direction : Vector α h.size) (maxNorm : α) :
    ∃ h' out, (h.search fuel problem parameters x.toArray f (.ofArray grad.toArray)
        (.ofArray direction.toArray) maxNorm).result = .ok (h', out) ∧
      (∀ e, out = .error e → h' = h) ∧
      (∀ heading : Heading α h.size, heading.Leads parameters a x grad direction maxNorm →
        (∃ i ∈ a.free, onBound parameters.precision heading.direction x a.working i = true) →
          ∃ found, out = .ok found ∧ found.status = .zeroStep) ∧
      ∀ found, out = .ok found → ∃ s : SearchResult α h.size, found = .ofResult s ∧
        (LineSearch.search fuel problem parameters a x f grad direction maxNorm).result = .ok s ∧
        s.IsAlong a grad direction maxNorm ∧ s.HasEffect parameters.precision a x f ∧
        h' = h.withActive s.activeSet s.newlyFixed ∧ h'.Fits s.activeSet ∧
        (s.status = .stationary ∨ s.status = .noProgress → h' = h) := by
  rw [search_eq hfits hp.zero, Logged.result_bind_of_ok (b := _) rfl]
  have heffect := search_hasEffect hp fuel problem a x f grad direction maxNorm
  have halong : (LineSearch.search fuel problem parameters a x f grad direction maxNorm).Meets
      (fun _ => True) (fun _ => True) (·.IsAlong a grad direction maxNorm) :=
    search_isAlong fuel problem parameters a x f
  cases hresult : (LineSearch.search fuel problem parameters a x f grad direction maxNorm).result with
  | error e =>
    refine ⟨h, .error e, rfl, fun _ _ => rfl, ?_, nofun⟩
    intro heading hleads hon
    obtain ⟨s, hs, _⟩ := hleads.search_zeroStep hp hon fuel problem f
    cases hresult.symm.trans hs
  | ok s =>
    have heffect := heffect.value s hresult
    refine ⟨_, _, rfl, nofun, ?_, ?_⟩
    . intro heading hleads hon
      obtain ⟨t, ht, hstatus⟩ := hleads.search_zeroStep hp hon fuel problem f
      cases hresult.symm.trans ht
      exact ⟨_, rfl, hstatus⟩
    intro found hfound
    refine ⟨s, (Except.ok.inj hfound).symm, rfl, halong.value s hresult, heffect, rfl,
      hfits.withActive heffect.gains.bounds heffect.gains.indices, ?_⟩
    intro hstatus
    obtain ⟨_, _, hnewlyFixed, hactiveSet⟩ := heffect.unmoved hstatus
    rw [hactiveSet, hnewlyFixed]
    exact hfits.withActive_self

end Sized

theorem search_effect_above :
    (ofActive (.ofBounds (Line.above 0))).Fits (.ofBounds (Line.above 0)) ∧ Line.precision.Positive ∧
    (Line.heading 1 (-1) 2).Leads Cliff.parameters (.ofBounds (Line.above 0)) (Line.point 0) (Line.point 1)
      (Line.point (-1)) (.finite 2) ∧
    (∃ i ∈ (ActiveSet.ofBounds (Line.above 0)).free, onBound Cliff.parameters.precision (Line.point (-1))
      (Line.point 0) (ActiveSet.ofBounds (Line.above 0)).working i = true) ∧
    ∃ h' s, ((ofActive (.ofBounds (Line.above 0))).search 0 (Cliff.problem (.finite (-5)) (.finite 1))
        Cliff.parameters (Line.point 0).toArray (.finite 0) (.ofArray (Line.point 1).toArray)
        (.ofArray (Line.point (-1)).toArray) (.finite 2)).result = .ok (h', .ok (.ofResult s)) ∧
      s.status = .zeroStep ∧ s.newlyFixed = [0] ∧
      s.HasEffect Line.precision (.ofBounds (Line.above 0)) (Line.point 0) (.finite 0) ∧
      h'.Fits s.activeSet := by
  have hfits := fits_ofActive (ActiveSet.ofBounds (Line.above 0))
  have hp : Cliff.parameters.precision.Positive := Line.precision_positive
  have hleads : (Line.heading 1 (-1) 2).Leads Cliff.parameters (.ofBounds (Line.above 0)) (Line.point 0)
      (Line.point 1) (Line.point (-1)) (.finite 2) := by
    apply Line.heading_leads rfl rfl
    . norm_num
    . apply Line.scales_self
      . norm_num
      . norm_num
    . norm_num
    . norm_num
  have hon : ∃ i ∈ (ActiveSet.ofBounds (Line.above 0)).free, onBound Cliff.parameters.precision
      (Line.point (-1)) (Line.point 0) (ActiveSet.ofBounds (Line.above 0)).working i = true := by
    refine ⟨0, List.mem_singleton_self 0, ?_⟩
    rw [onBound_iff]
    unfold boundStep?
    rw [Line.heading_down rfl (by norm_num), Option.map_some, Line.ratio_eq (by norm_num)]
    exact ⟨_, rfl, Extended.finite_le.mpr (by norm_num)⟩
  obtain ⟨h', out, hresult, _, hzeroStep, hok⟩ := search_effect hfits hp 0
    (Cliff.problem (.finite (-5)) (.finite 1)) (Line.point 0) (.finite 0) (Line.point 1) (Line.point (-1))
    (.finite 2)
  obtain ⟨found, rfl, hstatus⟩ := hzeroStep _ hleads hon
  obtain ⟨s, rfl, hs, _, heffect, _, hfits', _⟩ := hok found rfl
  have hsearch : (LineSearch.search 0 (Cliff.problem (.finite (-5)) (.finite 1)) Cliff.parameters
      (.ofBounds (Line.above 0)) (Line.point 0) (.finite 0) (Line.point 1) (Line.point (-1))
      (.finite 2)).result = .ok (Line.snapped (.finite 0) 1 (-1) 0) := by
    apply Line.search_snaps rfl rfl
    . norm_num
    . norm_num
    . norm_num
    . norm_num
    . norm_num
    . norm_num
    . norm_num
  cases hsearch.symm.trans hs
  exact ⟨hfits, hp, hleads, hon, h', _, hresult, hstatus, rfl, heffect, hfits'⟩

end Held

end BoxDescent

import BoxDescent.Proofs.ActiveSet
import BoxDescent.Proofs.Exact.Vector
import BoxDescent.Proofs.Selection

/-!
This module contains what a decision leaves of the list of held variables. A variable is taken off the list
as soon as it is found, before the decision knows whether the point passes as a minimum and whether a later
estimate fails. So the list is what it was only if nothing was found by then (`select_keeps_iff`), and a
variable may be off the list although it is still held (`Repeated.select_forgets`).
-/

namespace BoxDescent

namespace Release

variable {α : Type} [Scalar α] {n : Nat}

section Scan

variable {ι : Type} [BEq ι] {estimate : ι → Run α n (Estimate α)} {previous : Option (List ι)}

theorem kept_judge (previous : Option (List ι)) (s : Scan ι) (i : ι) (e : Estimate α) :
    (judge previous s i e).kept = if e.isReleased then s.kept else i :: s.kept := by
  unfold judge
  dsimp only
  split <;> split <;> rfl

theorem judgeAll_kept (previous : Option (List ι)) (es : List (ι × Estimate α)) : ∀ s : Scan ι,
    (judgeAll previous s es).kept =
      ((es.filter fun p => !p.2.isReleased).map (·.1)).reverse ++ s.kept := by
  induction es with
  | nil => exact fun _ => rfl
  | cons p es ih =>
    intro s
    have hrest := ih (judge previous s p.1 p.2)
    rw [kept_judge] at hrest
    refine hrest.trans ?_
    cases hp : p.2.isReleased with
    | true => simp [hp]
    | false => simp [hp]

section AllMade

variable {indices : List ι} {e : ι → Estimate α}
  (he : ∀ i ∈ indices, (estimate i).result = .ok (e i))

include he in
omit [Scalar α] [BEq ι] in
theorem eq_map_of_estimates {es : List (ι × Estimate α)} (hes : ∀ p ∈ es, (estimate p.1).result = .ok p.2)
    (his : es.map (·.1) = indices.reverse) : es = indices.reverse.map fun i => (i, e i) := by
  have heach : ∀ p ∈ es, ((fun i => (i, e i)) ∘ (·.1)) p = id p := by
    intro p hp
    have hmem : p.1 ∈ indices := by
      rw [← List.mem_reverse, ← his]
      exact List.mem_map_of_mem hp
    have heq := hes p hp
    rw [he p.1 hmem, Except.ok.injEq] at heq
    exact Prod.ext rfl heq
  rw [← his, List.map_map, List.map_congr_left heach, List.map_id]

theorem judgeAll_map (indices : List ι) (e : ι → Estimate α) (previous : Option (List ι)) :
    let s := judgeAll previous { kept := [], toFree := [], finished := true }
      (indices.reverse.map fun i => (i, e i))
    s.toFree = (indices.filter fun i => (e i).isReleased).reverse ∧
      s.kept = indices.filter fun i => !(e i).isReleased := by
  dsimp only
  rw [judgeAll_toFree, judgeAll_kept, List.filter_map, List.filter_map, List.map_map, List.map_map,
    List.filter_reverse, List.filter_reverse]
  simp [Function.comp_def]

include he in
theorem decision_of_estimates (previous : Option (List ι)) :
    let toFree := (indices.filter fun i => (e i).isReleased).reverse
    ∃ released, (decision estimate previous indices).result = .ok {
        indices := indices.filter fun i => !(e i).isReleased, verdict := .ok (toFree, released) } ∧
      ((∀ i ∈ indices, (e i).secondOrder = false) →
        (released = true ↔ toFree ≠ [] ∧ ¬sameIndices (some toFree) previous = true)) ∧
      ((∀ i ∈ indices, (e i).secondOrder = true) → (released = true ↔ toFree ≠ [])) := by
  intro toFree
  obtain ⟨es, d, hd, hes, houtcome⟩ := decision_outcome estimate previous indices
  cases houtcome with
  | @failed s before after i _ _ hindices hi _ =>
    rw [he i (by simp [hindices])] at hi
    cases hi
  | @decided s his hs =>
    have hall := eq_map_of_estimates he hes his
    obtain ⟨htoFree, hkept⟩ := judgeAll_map indices e previous
    rw [← hall, ← hs] at htoFree hkept
    have hrows : ∀ value, (∀ i ∈ indices, (e i).secondOrder = value) →
        ∀ p ∈ es, p.2.secondOrder = value := by
      intro value h p hp
      rw [hall, List.mem_map] at hp
      obtain ⟨i, hi, rfl⟩ := hp
      exact h i (List.mem_reverse.mp hi)
    rw [htoFree, hkept] at hd
    refine ⟨!s.finished, hd, ?_, ?_⟩
    . intro hnone
      rw [Bool.not_eq_true', ← Bool.not_eq_true, judgeAll_finished_of_no_rows hs (hrows false hnone),
        htoFree, not_or]
    . intro hsome
      rw [Bool.not_eq_true', ← Bool.not_eq_true, judgeAll_finished_of_rows hs (hrows true hsome), htoFree]

end AllMade

def IsCandidate (estimate : ι → Run α n (Estimate α)) (i : ι) : Prop :=
  ∃ e, (estimate i).result = .ok e ∧ e.isReleased = true

section Estimates

variable {es : List (ι × Estimate α)} {is : List ι} (hes : ∀ p ∈ es, (estimate p.1).result = .ok p.2)
  (his : es.map (·.1) = is.reverse)
include hes

omit [BEq ι] in
theorem released_iff_isCandidate {p : ι × Estimate α} (hp : p ∈ es) :
    p.2.isReleased = true ↔ IsCandidate estimate p.1 := by
  constructor
  . exact fun h => ⟨p.2, hes p hp, h⟩
  . intro h
    obtain ⟨e, he, hreleased⟩ := h
    rw [hes p hp, Except.ok.injEq] at he
    rw [he]
    exact hreleased

include his

omit [BEq ι] in
theorem none_released_iff : (∀ p ∈ es, p.2.isReleased = false) ↔ ∀ i ∈ is, ¬IsCandidate estimate i := by
  constructor
  . intro h i hi hcandidate
    rw [← List.mem_reverse, ← his, List.mem_map] at hi
    obtain ⟨p, hp, rfl⟩ := hi
    rw [← released_iff_isCandidate hes hp, h p hp] at hcandidate
    cases hcandidate
  . intro h p hp
    rw [Bool.eq_false_iff, Ne, released_iff_isCandidate hes hp]
    apply h
    rw [← List.mem_reverse, ← his]
    exact List.mem_map_of_mem hp

omit [BEq ι] in
theorem seesLast_iff : SeesLast es ↔ ∃ before i after, is = before ++ i :: after ∧
    (∃ e, (estimate i).result = .ok e ∧ e.secondOrder = false) ∧
    ∀ j ∈ before, ¬IsCandidate estimate j := by
  constructor
  . intro h
    obtain ⟨before, p, after, rfl, hrow, hafter⟩ := h
    refine ⟨(after.map (·.1)).reverse, p.1, (before.map (·.1)).reverse, ?_,
      ⟨p.2, hes p (by simp), hrow⟩, ?_⟩
    . rw [← List.reverse_reverse is, ← his]
      simp
    . have hback : after.map (·.1) = (after.map (·.1)).reverse.reverse := (List.reverse_reverse _).symm
      exact (none_released_iff (fun q hq => hes q (by simp [hq])) hback).mp hafter
  . intro h
    obtain ⟨before, i, after, rfl, ⟨e, he, hrow⟩, hbefore⟩ := h
    rw [List.reverse_append, List.reverse_cons, List.append_assoc, List.singleton_append,
      List.map_eq_append_iff] at his
    obtain ⟨es₁, es', rfl, _, hes'⟩ := his
    obtain ⟨p, es₂, rfl, hp, hes₂⟩ := List.map_eq_cons_iff.mp hes'
    refine ⟨es₁, p, es₂, rfl, ?_, ?_⟩
    . have heq := hes p (by simp)
      rw [hp, he, Except.ok.injEq] at heq
      rw [← heq]
      exact hrow
    . exact (none_released_iff (fun q hq => hes q (by simp [hq])) hes₂).mpr hbefore

omit hes in
theorem kept_eq_iff {s : Scan ι}
    (hs : s = judgeAll previous { kept := [], toFree := [], finished := true } es) :
    s.kept = is ↔ ∀ p ∈ es, p.2.isReleased = false := by
  have hkept : s.kept = ((es.filter fun p => !p.2.isReleased).map (·.1)).reverse := by
    rw [hs, judgeAll_kept, List.append_nil]
  constructor
  . intro h
    have hlength : (es.filter fun p => !p.2.isReleased).length = es.length := by
      have his := congrArg List.length his
      rw [List.length_map, List.length_reverse, ← h, hkept, List.length_reverse, List.length_map] at his
      exact his.symm
    intro p hp
    have hkeep := List.length_filter_eq_length_iff.mp hlength p hp
    rw [Bool.not_eq_true'] at hkeep
    exact hkeep
  . intro h
    have hfilter : (es.filter fun p => !p.2.isReleased) = es := by
      apply List.filter_eq_self.mpr
      intro p hp
      rw [h p hp]
      rfl
    rw [hkept, hfilter, his, List.reverse_reverse]

end Estimates

end Scan

omit [Scalar α] in
theorem withIndices_eq_iff (a : ActiveSet α n) (is : List (Fin n)) :
    { a with indices := is } = a ↔ is = a.indices := by
  constructor
  . exact fun h => congrArg ActiveSet.indices h
  . intro h
    rw [h]

/-- A decision leaves the active set as it was if and only if it has found nothing by its end. It may have
found something and yet let the point pass, if that is what was found the last time and if a variable without
a row of the Hessian is judged after everything was found. And it may have found something behind a variable
whose estimate fails. -/
theorem select_keeps_iff (p : Problem α n) (a : ActiveSet α n) (x grad step : Vector α n)
    (previous : Option (List (Fin n))) :
    ∃ d, (select p a x grad step previous).result = .ok d ∧
      (∀ toFree released, d.verdict = .ok (toFree, released) →
        ({ a with indices := d.indices } = a ↔ toFree = []) ∧
        (released = false ↔ toFree = [] ∨ sameIndices (some toFree) previous = true ∧
          ∃ before i after, a.indices = before ++ i :: after ∧
            (p.evalHessianRow x i).result = .ok none ∧
            ∀ j ∈ before, ¬IsCandidate (estimate p a x grad step) j)) ∧
      ∀ e, d.verdict = .error e → ∃ before i after, a.indices = before ++ i :: after ∧
        (estimate p a x grad step i).result = .error e ∧
        ({ a with indices := d.indices } = a ↔
          ∀ j ∈ after, ¬IsCandidate (estimate p a x grad step) j) := by
  obtain ⟨es, d, hd, hes, houtcome⟩ := decision_outcome (estimate p a x grad step) previous a.indices
  refine ⟨d, hd, ?_⟩
  cases houtcome with
  | @decided s his hs =>
    refine ⟨?_, nofun⟩
    intro toFree released hverdict
    cases hverdict
    have htoFree : s.toFree = [] ↔ ∀ p ∈ es, p.2.isReleased = false := by
      rw [hs, judgeAll_toFree, List.nil_append, List.map_eq_nil_iff, List.filter_eq_nil_iff]
      simp only [Bool.not_eq_true]
    refine ⟨?_, ?_⟩
    . rw [withIndices_eq_iff, htoFree]
      exact kept_eq_iff his hs
    . -- An estimate is of first order only where the Hessian has no row.
      have hrow : ∀ i ∈ a.indices, (∃ e, (estimate p a x grad step i).result = .ok e ∧
          e.secondOrder = false) ↔ (p.evalHessianRow x i).result = .ok none := by
        intro i hi
        rw [← List.mem_reverse, ← his, List.mem_map] at hi
        obtain ⟨q, hq, rfl⟩ := hi
        have hestimate := hes q hq
        obtain ⟨row, heval, _, hsecond, _⟩ := estimate_result hestimate
        rw [hestimate, heval]
        cases row with
        | none => simpa using hsecond
        | some w => simpa using hsecond
      have hfinished := judgeAll_finished_iff previous es
      dsimp only at hfinished
      rw [← hs, seesLast_iff hes his] at hfinished
      rw [Bool.not_eq_false', hfinished]
      refine or_congr Iff.rfl (and_congr Iff.rfl ?_)
      apply exists_congr; intro before
      apply exists_congr; intro i
      apply exists_congr; intro after
      apply and_congr_right
      intro hsplit
      rw [hrow i (by simp [hsplit])]
  | @failed s before after i e his hindices hi hs =>
    refine ⟨nofun, ?_⟩
    intro e' he
    cases he
    refine ⟨before, i, after, hindices, hi, ?_⟩
    rw [withIndices_eq_iff, hindices, List.append_cancel_left_eq, List.cons.injEq,
      and_iff_right rfl, ← none_released_iff hes his, ← kept_eq_iff his hs]

theorem decision_repeats {estimate : Fin n → Run α n (Estimate α)} {i : Fin n} {e : Estimate α}
    (he : (estimate i).result = .ok e) (hrow : e.secondOrder = false) (hreleased : e.isReleased = true) :
    (decision estimate (some [i]) [i]).result = .ok { indices := [], verdict := .ok ([i], false) } := by
  have hattempt : ((estimate i).attempt : Run α n _).result = .ok (.ok e) := congrArg Except.ok he
  have hsame : sameIndices (some [i]) (some [i]) = true := List.isPerm_iff.mpr (List.Perm.refl [i])
  unfold decision
  rw [result_note_bind]
  show (scan estimate (some [i]) _ [i]).result = _
  unfold scan
  rw [Logged.result_bind_of_ok hattempt]
  show Except.ok (Decision.mk (judge (some [i]) _ i e).kept
    (.ok ((judge (some [i]) _ i e).toFree, !(judge (some [i]) _ i e).finished))) = _
  unfold judge
  dsimp only
  rw [hreleased, hrow, if_pos rfl, List.nil_append, hsame]
  rfl

namespace Repeated

open Extended

def problem : Problem Extended 1 where
  objective x := .ok x[0]
  gradient _ := .ok (ofReals fun _ => 1)

noncomputable def bounds : Bounds Extended 1 where
  lower := #v[some 0]
  upper := #v[none]

noncomputable def held : ActiveSet Extended 1 :=
  (ActiveSet.ofBounds bounds).fix 0 .lower

theorem estimate_eq : (estimate problem held (ofReals fun _ => 0) (ofReals fun _ => -1)
    (ofReals fun _ => 0) 0).result = .ok { first := .finite (-1), change := 0, secondOrder := false } := by
  unfold estimate
  rw [Problem.evalHessianRow_of_none rfl]
  have hmultiplier : held.multiplier (ofReals fun _ => 0) (ofReals fun _ => -1) 0 =
      .ok (.finite (-1)) := by
    have hupper : held.bounds.bound 0 .upper = none := rfl
    have hlower : held.bounds.bound 0 .lower = some 0 := rfl
    have hsits : held.bounds.reached 0 (ofReals fun _ => 0 : Vector Extended 1)[(0 : Fin 1)] .lower =
        true := by
      rw [Bounds.reached_lower hlower, getElem_ofReals]
      exact decide_eq_true (le_refl (0 : ℝ))
    have hgrad : (ofReals fun _ => -1 : Vector Extended 1)[(0 : Fin 1)] = .finite (-1) :=
      getElem_ofReals _ 0
    unfold ActiveSet.multiplier
    rw [hsits, hgrad]
    simp [Bounds.reached, hupper]
  rw [hmultiplier]
  rfl

theorem select_forgets : held.indices = [0] ∧ held.fixed[0] = true ∧
    ∃ d, (select problem held (ofReals fun _ => 0) (ofReals fun _ => -1) (ofReals fun _ => 0)
      (some [0])).result = .ok d ∧ d.verdict = .ok ([0], false) ∧ d.indices = [] := by
  have hreleased : (Estimate.mk (.finite (-1)) 0 false : Estimate Extended).isReleased = true := by
    rw [isReleased_finite rfl rfl]
    norm_num
  exact ⟨rfl, rfl, _, decision_repeats estimate_eq rfl hreleased, rfl, rfl⟩

end Repeated

end Release

end BoxDescent

import BoxDescent.Release
import BoxDescent.Proofs.Problem
import BoxDescent.Proofs.Scalar.Extended

/-!
This module contains what the decision about held variables comes down to (`Outcome`). Going through them
one by one finds exactly those whose estimates say so (`judgeAll_toFree`). The verdict is set and taken back
on the way: the point passes if nothing was found, or if it was the same as last time and a variable without
a row of the Hessian comes after the last one found (`judgeAll_finished_iff`).
-/

namespace BoxDescent

namespace Release

variable {α : Type} [Scalar α] {n : Nat}

section Scan

variable {ι : Type} [BEq ι] {estimate : ι → Run α n (Estimate α)} {previous : Option (List ι)}

def judgeAll (previous : Option (List ι)) (s : Scan ι) (es : List (ι × Estimate α)) : Scan ι :=
  es.foldl (fun s p => judge previous s p.1 p.2) s

theorem toFree_judge (previous : Option (List ι)) (s : Scan ι) (i : ι) (e : Estimate α) :
    (judge previous s i e).toFree = if e.isReleased then s.toFree ++ [i] else s.toFree := by
  unfold judge
  dsimp only
  split <;> split <;> rfl

theorem judgeAll_toFree (previous : Option (List ι)) (es : List (ι × Estimate α)) : ∀ s : Scan ι,
    (judgeAll previous s es).toFree = s.toFree ++ (es.filter (·.2.isReleased)).map (·.1) := by
  induction es with
  | nil =>
    intro s
    exact (List.append_nil _).symm
  | cons p es ih =>
    intro s
    have hrest := ih (judge previous s p.1 p.2)
    rw [toFree_judge] at hrest
    rw [List.filter_cons]
    refine hrest.trans ?_
    split
    . rw [List.append_assoc, List.map_cons, List.singleton_append]
    . rfl

theorem judgeAll_append (previous : Option (List ι)) (s : Scan ι) (es : List (ι × Estimate α))
    (p : ι × Estimate α) :
    judgeAll previous s (es ++ [p]) = judge previous (judgeAll previous s es) p.1 p.2 := by
  unfold judgeAll
  rw [List.foldl_append, List.foldl_cons, List.foldl_nil]

def SeesLast (es : List (ι × Estimate α)) : Prop :=
  ∃ before p after, es = before ++ p :: after ∧ p.2.secondOrder = false ∧
    ∀ q ∈ after, q.2.isReleased = false

omit [BEq ι] in
theorem seesLast_append {es : List (ι × Estimate α)} {p : ι × Estimate α} : SeesLast (es ++ [p]) ↔
    p.2.secondOrder = false ∨ p.2.isReleased = false ∧ SeesLast es := by
  constructor
  . intro h
    obtain ⟨before, q, after, heq, hq, hafter⟩ := h
    cases List.eq_nil_or_concat' after with
    | inl hnil =>
      subst hnil
      obtain ⟨_, hpq⟩ := List.append_inj' heq rfl
      rw [List.singleton_inj.mp hpq]
      exact Or.inl hq
    | inr hconcat =>
      obtain ⟨init, last, rfl⟩ := hconcat
      rw [← List.cons_append, ← List.append_assoc] at heq
      obtain ⟨hes, hlast⟩ := List.append_inj' heq rfl
      have hreleased := hafter last (List.mem_append_right _ (List.mem_singleton_self last))
      rw [← List.singleton_inj.mp hlast] at hreleased
      exact Or.inr ⟨hreleased, before, q, init, hes, hq,
        fun r hr => hafter r (List.mem_append_left _ hr)⟩
  . intro h
    cases h with
    | inl hrow => exact ⟨es, p, [], rfl, hrow, nofun⟩
    | inr hsees =>
      obtain ⟨hp, before, q, after, rfl, hq, hafter⟩ := hsees
      refine ⟨before, q, after ++ [p], by simp, hq, ?_⟩
      intro r hr
      cases List.mem_append.mp hr with
      | inl hr => exact hafter r hr
      | inr hr =>
        rw [List.mem_singleton.mp hr]
        exact hp

theorem judgeAll_finished_iff (previous : Option (List ι)) (es : List (ι × Estimate α)) :
    let s := judgeAll previous { kept := [], toFree := [], finished := true } es
    s.finished = true ↔ s.toFree = [] ∨ sameIndices (some s.toFree) previous = true ∧ SeesLast es := by
  -- The verdict is taken back whenever a variable is found, so the last one found and those after it decide.
  induction es using List.reverseRecOn with
  | nil => simp [judgeAll]
  | append_singleton es p ih =>
    dsimp only at ih ⊢
    rw [judgeAll_append, toFree_judge]
    unfold judge
    dsimp only
    generalize judgeAll previous _ es = s at ih ⊢
    rw [seesLast_append]
    cases hreleased : p.2.isReleased with
    | true =>
      rw [if_pos rfl, if_pos rfl]
      dsimp only
      cases p.2.secondOrder with
      | true => simp
      | false => cases hsame : sameIndices (some (s.toFree ++ [p.1])) previous <;> simp
    | false =>
      rw [if_neg Bool.false_ne_true, if_neg Bool.false_ne_true]
      dsimp only
      cases p.2.secondOrder with
      | true => simpa using ih
      | false =>
        cases hsame : sameIndices (some s.toFree) previous with
        | true => simp
        | false => simpa [hsame] using ih

section Finished

variable {es : List (ι × Estimate α)} {s : Scan ι}
  (hs : s = judgeAll previous { kept := [], toFree := [], finished := true } es)
include hs

theorem judgeAll_finished_of_no_rows (hrows : ∀ p ∈ es, p.2.secondOrder = false) :
    s.finished = true ↔ s.toFree = [] ∨ sameIndices (some s.toFree) previous = true := by
  subst hs
  cases List.eq_nil_or_concat' es with
  | inl hnil =>
    subst hnil
    simp [judgeAll]
  | inr hconcat =>
    obtain ⟨before, p, rfl⟩ := hconcat
    have hsees : SeesLast (before ++ [p]) :=
      seesLast_append.mpr (Or.inl (hrows p (List.mem_append_right _ (List.mem_singleton_self p))))
    have hiff := judgeAll_finished_iff previous (before ++ [p])
    dsimp only at hiff
    rw [hiff, and_iff_left hsees]

theorem judgeAll_finished_of_rows (hrows : ∀ p ∈ es, p.2.secondOrder = true) :
    s.finished = true ↔ s.toFree = [] := by
  have hsees : ¬SeesLast es := by
    rintro ⟨before, p, after, rfl, hp, _⟩
    rw [hrows p (List.mem_append_right _ List.mem_cons_self)] at hp
    cases hp
  have hiff := judgeAll_finished_iff previous es
  dsimp only at hiff
  rw [← hs] at hiff
  rw [hiff, or_iff_left fun h => hsees h.2]

end Finished

inductive Outcome (estimate : ι → Run α n (Estimate α)) (previous : Option (List ι))
    (indices : List ι) (es : List (ι × Estimate α)) : Decision α ι → Prop where
  | decided {s : Scan ι} : es.map (·.1) = indices.reverse →
    s = judgeAll previous { kept := [], toFree := [], finished := true } es →
    Outcome estimate previous indices es { indices := s.kept, verdict := .ok (s.toFree, !s.finished) }
  | failed {s : Scan ι} {before after : List ι} {i : ι} {e : Error α} :
    es.map (·.1) = after.reverse → indices = before ++ i :: after → (estimate i).result = .error e →
    s = judgeAll previous { kept := [], toFree := [], finished := true } es →
    Outcome estimate previous indices es { indices := before ++ i :: s.kept, verdict := .error e }

theorem scan_outcome {indices : List ι} (todo : List ι) : ∀ es : List (ι × Estimate α),
    indices.reverse = es.map (·.1) ++ todo → (∀ p ∈ es, (estimate p.1).result = .ok p.2) →
    ∃ es' d, (scan estimate previous
        (judgeAll previous { kept := [], toFree := [], finished := true } es) todo).result = .ok d ∧
      (∀ p ∈ es', (estimate p.1).result = .ok p.2) ∧ Outcome estimate previous indices es' d := by
  induction todo with
  | nil =>
    intro es hindices hes
    rw [List.append_nil] at hindices
    exact ⟨es, _, rfl, hes, .decided hindices.symm rfl⟩
  | cons i todo ih =>
    intro es hindices hes
    unfold scan
    rw [Logged.result_bind]
    unfold Logged.attempt
    dsimp only [Except.bind]
    cases hi : (estimate i).result with
    | error e =>
      have hafter : es.map (·.1) = (es.map (·.1)).reverse.reverse := (List.reverse_reverse _).symm
      refine ⟨es, _, rfl, hes, .failed hafter ?_ hi rfl⟩
      rw [← List.reverse_reverse indices, hindices]
      simp
    | ok e =>
      have hnext := ih (es ++ [(i, e)]) (by simpa using hindices) (by
        intro p hp
        cases List.mem_append.mp hp with
        | inl hp => exact hes p hp
        | inr hp =>
          rw [List.mem_singleton.mp hp]
          exact hi)
      rw [judgeAll_append] at hnext
      exact hnext

theorem decision_outcome (estimate : ι → Run α n (Estimate α)) (previous : Option (List ι))
    (indices : List ι) : ∃ es d, (decision estimate previous indices).result = .ok d ∧
      (∀ p ∈ es, (estimate p.1).result = .ok p.2) ∧ Outcome estimate previous indices es d := by
  unfold decision
  rw [result_note_bind]
  exact scan_outcome indices.reverse [] rfl nofun

/-- The estimates that a decision has been made on, and what it has come to. -/
structure Decided (estimate : ι → Run α n (Estimate α)) (previous : Option (List ι)) (indices : List ι)
    (toFree : List ι) (released : Bool) (es : List (ι × Estimate α)) : Prop where
  all : es.map (·.1) = indices.reverse
  estimates : ∀ p ∈ es, (estimate p.1).result = .ok p.2
  found : toFree = (es.filter (·.2.isReleased)).map (·.1)
  nonempty : released = true → toFree ≠ []
  noRows : (∀ p ∈ es, p.2.secondOrder = false) →
    (released = false ↔ toFree = [] ∨ sameIndices (some toFree) previous = true)
  rows : (∀ p ∈ es, p.2.secondOrder = true) → (released = false ↔ toFree = [])

theorem decision_decided {indices kept toFree : List ι} {released : Bool}
    (h : (decision estimate previous indices).result =
      .ok { indices := kept, verdict := .ok (toFree, released) }) :
    ∃ es, Decided estimate previous indices toFree released es := by
  obtain ⟨es, d, hd, hestimates, houtcome⟩ := decision_outcome estimate previous indices
  rw [h, Except.ok.injEq] at hd
  subst hd
  cases houtcome with
  | @decided s hall hs =>
    refine ⟨es, hall, hestimates, ?_, ?_, ?_, ?_⟩
    . rw [hs, judgeAll_toFree]
      rfl
    . intro hreleased hnil
      rw [hs, (judgeAll_finished_iff previous es).mpr (Or.inl (hs ▸ hnil))] at hreleased
      cases hreleased
    . intro hrows
      rw [Bool.not_eq_false']
      exact judgeAll_finished_of_no_rows hs hrows
    . intro hrows
      rw [Bool.not_eq_false']
      exact judgeAll_finished_of_rows hs hrows

theorem Decided.exists_estimate {indices toFree : List ι} {released : Bool} {es : List (ι × Estimate α)}
    (h : Decided estimate previous indices toFree released es) {i : ι} (hi : i ∈ indices) :
    ∃ e, (i, e) ∈ es := by
  rw [← List.mem_reverse, ← h.all, List.mem_map] at hi
  obtain ⟨p, hp, rfl⟩ := hi
  exact ⟨p.2, hp⟩

theorem Decided.mem_toFree {indices toFree : List ι} {released : Bool} {es : List (ι × Estimate α)}
    (h : Decided estimate previous indices toFree released es) {i : ι} :
    i ∈ toFree ↔ i ∈ indices ∧ ∃ e, (estimate i).result = .ok e ∧ e.isReleased = true := by
  rw [h.found, List.mem_map]
  constructor
  . intro hi
    obtain ⟨p, hp, rfl⟩ := hi
    rw [List.mem_filter] at hp
    refine ⟨?_, p.2, h.estimates p hp.1, hp.2⟩
    rw [← List.mem_reverse, ← h.all]
    exact List.mem_map_of_mem hp.1
  . intro hi
    obtain ⟨hmem, e, he, hreleased⟩ := hi
    obtain ⟨e', hmem'⟩ := h.exists_estimate hmem
    have heq := h.estimates (i, e') hmem'
    rw [he, Except.ok.injEq] at heq
    exact ⟨(i, e'), List.mem_filter.mpr ⟨hmem', heq ▸ hreleased⟩, rfl⟩

theorem decision_single {i : ι} {e : Estimate α} (he : (estimate i).result = .ok e)
    {previous : Option (List ι)} (hrow : e.secondOrder = true ∨ previous = none) :
    (decision estimate previous [i]).result = .ok (
      if e.isReleased then { indices := [], verdict := .ok ([i], true) }
      else { indices := [i], verdict := .ok ([], false) }) := by
  have hattempt : ((estimate i).attempt : Run α n _).result = .ok (.ok e) := congrArg Except.ok he
  have hpasses : ∀ found, (!e.secondOrder && sameIndices (some found) previous) = false := by
    intro found
    cases hrow with
    | inl hrow => rw [hrow, Bool.not_true, Bool.false_and]
    | inr hfirst =>
      rw [hfirst]
      exact Bool.and_false _
  unfold decision
  rw [result_note_bind]
  show (scan estimate previous _ [i]).result = _
  unfold scan
  rw [Logged.result_bind_of_ok hattempt]
  show Except.ok (Decision.mk (judge previous _ i e).kept
    (.ok ((judge previous _ i e).toFree, !(judge previous _ i e).finished))) = _
  unfold judge
  dsimp only
  rw [hpasses, if_neg Bool.false_ne_true]
  split
  . rfl
  . rfl

end Scan

theorem estimate_result {p : Problem α n} {a : ActiveSet α n} {x grad step : Vector α n} {i : Fin n}
    {e : Estimate α} (h : (estimate p a x grad step i).result = .ok e) :
    ∃ row, (p.evalHessianRow x i).result = .ok row ∧ a.multiplier x grad i = .ok e.first ∧
      e.secondOrder = row.isSome ∧ e.change = row.elim 0 fun h => dotOver a.free h step := by
  unfold estimate at h
  obtain ⟨row, hrow, h⟩ := Logged.exists_of_bind_ok h
  obtain ⟨first, hfirst, h⟩ := Logged.exists_of_bind_ok h
  rw [result_note_bind] at h
  cases h
  refine ⟨row, hrow, hfirst, rfl, ?_⟩
  cases row with
  | none => rfl
  | some h => rfl

open Extended in
theorem isReleased_finite {e : Estimate Extended} {first change : ℝ}
    (hfirst : e.first = .finite first) (hchange : e.change = .finite change) :
    e.isReleased = true ↔ first < 0 ∧ first + change < 0 ∧
      2 * |change| < min |first| |first + change| := by
  have htwo : (2.0 : ℝ) = 2 := by norm_num
  unfold Estimate.isReleased Estimate.second
  rw [hfirst, hchange, decide_eq_true_eq, finite_add, finite_mul, abs_finite, abs_finite, abs_finite,
    pickMin_finite, ofScientific_eq, finite_mul, zero_eq, gt_iff_lt, finite_lt, finite_lt, finite_lt, htwo]
  constructor
  . intro h
    obtain ⟨hproduct, hclose, hsecond⟩ := h
    exact ⟨(neg_iff_neg_of_mul_pos hproduct).mpr hsecond, hsecond, hclose⟩
  . intro h
    obtain ⟨hfirst, hsecond, hclose⟩ := h
    exact ⟨mul_pos_of_neg_of_neg hfirst hsecond, hclose, hsecond⟩

end Release

end BoxDescent

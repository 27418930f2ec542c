import BoxDescent.Release
import BoxDescent.Proofs.LineSearch.Feasible

/-!
This module contains what the decision about held variables does to their list: it only splits it into
the variables that stay and those to release, and it never finds a variable off its bounds.
-/

namespace BoxDescent

namespace Release

variable {α : Type} [Scalar α] {n : Nat}

section Scan

variable {ι : Type} [BEq ι] {L : Event α n → Prop} {E : Error α → Prop}

theorem perm_judge (previous : Option (List ι)) (s : Scan ι) (i : ι) (e : Estimate α) :
    ((judge previous s i e).toFree ++ (judge previous s i e).kept).Perm
      (s.toFree ++ i :: s.kept) := by
  unfold judge
  dsimp only
  cases e.isReleased with
  | true =>
    simp only [↓reduceIte]
    split
    . simp
    . simp
  | false =>
    simp only [Bool.false_eq_true, ↓reduceIte]
    split
    . rfl
    . rfl

/-- The decision splits the list, unless an estimate fails. -/
def Decision.Splits (d : Decision α ι) (indices : List ι) (E : Error α → Prop) : Prop :=
  (∀ toFree released, d.verdict = .ok (toFree, released) → (toFree ++ d.indices).Perm indices) ∧
    ∀ e, d.verdict = .error e → E e

theorem scan_meets (E' : Error α → Prop) (estimate : ι → Run α n (Estimate α))
    (previous : Option (List ι)) (todo : List ι)
    (hestimate : ∀ i ∈ todo, (estimate i).Meets L E fun _ => True) :
    ∀ s : Scan ι, (scan estimate previous s todo).Meets L E'
      (·.Splits (s.toFree ++ s.kept ++ todo) E) := by
  induction todo with
  | nil =>
    intro s
    apply Logged.meets_pure
    refine ⟨?_, nofun⟩
    intro toFree released h
    simp only [Except.ok.injEq, Prod.mk.injEq] at h
    rw [← h.1, List.append_nil]
  | cons i todo ih =>
    intro s
    unfold scan
    apply Logged.Meets.bind (hestimate i List.mem_cons_self).attempt
    intro outcome houtcome
    cases outcome with
    | error e =>
      apply Logged.meets_pure
      refine ⟨nofun, ?_⟩
      intro e' he
      cases he
      exact houtcome.2 e rfl
    | ok e =>
      have hrest := ih (fun j hj => hestimate j (List.mem_cons_of_mem i hj)) (judge previous s i e)
      apply hrest.imp
      intro d hd
      refine ⟨?_, hd.2⟩
      intro toFree released h
      apply (hd.1 toFree released h).trans
      apply ((perm_judge previous s i e).append_right todo).trans
      rw [List.append_assoc, List.append_assoc]
      apply List.Perm.append_left
      simpa using List.perm_middle.symm

theorem decision_meets {E' : Error α → Prop} (hl : ∀ m, L (.note m))
    (estimate : ι → Run α n (Estimate α)) (previous : Option (List ι)) (indices : List ι)
    (hestimate : ∀ i ∈ indices, (estimate i).Meets L E fun _ => True) :
    (decision estimate previous indices).Meets L E' (·.Splits indices E) := by
  unfold decision
  apply meets_note_bind (hl _)
  have hscan := scan_meets E' estimate previous indices.reverse
    (fun i hi => hestimate i (List.mem_reverse.mp hi)) { kept := [], toFree := [], finished := true }
  apply hscan.imp
  intro d hd
  refine ⟨?_, hd.2⟩
  intro toFree released h
  exact (hd.1 toFree released h).trans (List.reverse_perm indices)

end Scan

variable [Scalar.Lawful α] {b : Bounds α n} {a : ActiveSet α n} {x : Vector α n}

theorem estimate_meets {L : Event α n → Prop} {E : Error α → Prop} (hl : ∀ m, L (.note m))
    (hb : b.AllFinite) {held : List (Fin n)} (ha : a.Holds b held x) (p : Problem α n)
    (grad step : Vector α n) {i : Fin n} (hi : i ∈ held)
    (hrow : (p.evalHessianRow x i).Meets L E fun _ => True) :
    (estimate p a x grad step i).Meets L E fun _ => True := by
  unfold estimate
  apply Logged.Meets.bind hrow
  intro row _
  obtain ⟨m, hm⟩ := ha.multiplier hb grad ((ha.mem i).mp hi)
  dsimp only
  rw [hm]
  apply Logged.Meets.bind Logged.meets_ofExcept_ok
  intro first _
  apply meets_note_bind (hl _)
  exact Logged.meets_pure trivial

theorem select_meets {L : Event α n → Prop} {E E' : Error α → Prop} (hl : ∀ m, L (.note m))
    (hb : b.AllFinite) (ha : a.Holds b a.indices x) (p : Problem α n) (grad step : Vector α n)
    (previous : Option (List (Fin n)))
    (hrow : ∀ i, (p.evalHessianRow x i).Meets L E fun _ => True) :
    (select p a x grad step previous).Meets L E' (·.Splits a.indices E) := by
  unfold select
  exact decision_meets hl _ _ _ fun i hi => estimate_meets hl hb ha p grad step hi (hrow i)

end Release

end BoxDescent

import BoxDescent.Proofs.Selection
import BoxDescent.Proofs.Solver.Budget

/-!
This module contains which variables a run has freed last, as the masks before and after its rounds show it
(`LastFreed`). They are the ones that the solver remembers, and that it compares with when it decides
again (`Visited.lastFreed`).
-/

namespace BoxDescent

variable {α : Type} [Scalar α] {n : Nat}

theorem ActiveSet.fixed_releaseAll (x : Vector α n) (toFree : List (Fin n)) : ∀ (a : ActiveSet α n)
    (j : Fin n), (toFree.foldl (fun a i => a.release i x[i]) a).fixed[j] =
      if j ∈ toFree then false else a.fixed[j] := by
  induction toFree with
  | nil => exact fun _ _ => rfl
  | cons i toFree ih =>
    intro a j
    rw [List.foldl_cons, ih]
    unfold release
    dsimp only
    rw [getElem_set]
    by_cases hji : i = j
    . subst hji
      simp
    . simp [hji, Ne.symm hji]

namespace Solver

/-- Of the rounds until the run came to `s`, the last one that freed variables freed those in `freed`. -/
inductive LastFreed (t : Task α n) (s₀ : Iterate α n) : Iterate α n → (Fin n → Prop) → Prop where
  | now {s s' : Iterate α n} {r : SearchResult α n} {freed : Fin n → Prop} : Visited t s₀ s →
    (s.search t).result = .ok r → (s.pass t).result = .ok (.inl s') →
    (∀ i : Fin n, freed i ↔ r.activeSet.fixed[i] = true ∧ s'.activeSet.fixed[i] = false) →
    (∃ i, freed i) → LastFreed t s₀ s' freed
  | later {s s' : Iterate α n} {r : SearchResult α n} {freed : Fin n → Prop} : LastFreed t s₀ s freed →
    Visited t s₀ s → (s.search t).result = .ok r → (s.pass t).result = .ok (.inl s') →
    (∀ i : Fin n, r.activeSet.fixed[i] = true → s'.activeSet.fixed[i] = true) → LastFreed t s₀ s' freed

variable [Scalar.Lawful α] {b : Bounds α n} {t : Task α n} {s₀ s : Iterate α n}

theorem Visited.lastFreed (hc : b.crossed = false) (hb : b.AllFinite) (hp : t.precision.Positive)
    (h₀ : s₀.Keeps b) (hnone : s₀.toFree = none) (h : Visited t s₀ s) :
    ∀ l, s.toFree = some l → LastFreed t s₀ s (· ∈ l) := by
  induction h with
  | start _ =>
    intro l hl
    rw [hnone] at hl
    cases hl
  | @pass s s' hvisited hpass _ ih =>
    intro l hl
    have hkeeps := visited_keeps hc hb hp h₀ hvisited
    cases pass_outcome hpass with
    | snap hsearch _ _ hredirects =>
      obtain ⟨_, _, rfl⟩ := hredirects
      exact .later (ih l hl) hvisited hsearch hpass fun _ h => h
    | step hsteps _ _ hredirects =>
      obtain ⟨_, _, rfl⟩ := hredirects
      exact .later (ih l hl) hvisited hsteps.search hpass fun _ h => h
    | @release r _ _ _ kept _ _ hsteps _ _ hselect hredirects =>
      obtain ⟨_, _, rfl⟩ := hredirects
      cases hl
      obtain ⟨es, hdecided⟩ := Release.decision_decided hselect
      have hr := hkeeps.search hc hp hsteps.search
      have hheld : ∀ i ∈ l, r.activeSet.fixed[i] = true := fun i hi =>
        (hr.holds.mem i).mp (hdecided.mem_toFree.mp hi).1
      refine .now hvisited hsteps.search hpass ?_
        (List.exists_mem_of_ne_nil _ (hdecided.nonempty rfl))
      intro i
      have hfixed := ActiveSet.fixed_releaseAll r.x l { r.activeSet with indices := kept } i
      constructor
      . intro hi
        exact ⟨hheld i hi, hfixed.trans (if_pos hi)⟩
      . intro hi
        apply Classical.byContradiction
        intro hnot
        have hkept := hfixed.trans (if_neg hnot)
        rw [hi.1] at hkept
        exact Bool.noConfusion (hi.2.symm.trans hkept)

end Solver

end BoxDescent

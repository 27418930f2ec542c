import BoxDescent.Proofs.LineSearch.Aim
import BoxDescent.Proofs.LineSearch.Stage

/-!
This module contains the parts that a line search is made of, whatever the objective and its gradient answer
and however the arithmetic rounds: it ends where it aims, or at a stage that it has reached
(`search_reaches`).
-/

namespace BoxDescent.LineSearch

variable {α : Type} [Scalar α] {n : Nat}

/-- A search of a ray has ended at a stage that it has reached. -/
def Ray.Ends (r : Ray α n) (ending : Ending α) : Prop :=
  ∃ s f, r.Reaches s ∧ r.HasValue s.step f ∧ (s.advance r f).result = .ok (.inr ending)

def Ray.Observes (r : Ray α n) (e : Event α n) : Prop :=
  ∀ y v, e = .objective y v → ∃ s, r.Reaches s ∧ y = r.point s.step

theorem Ray.search_reaches (r : Ray α n) (fuel : Nat) :
    (r.search fuel).Meets r.Observes (fun _ => True) fun result =>
      ∃ ending, r.Ends ending ∧ (r.finish ending).result = .ok result := by
  have hnote : ∀ m : Note α, r.Observes (.note m) := fun _ => nofun
  have hslope : ∀ step, (r.slopeAt step).Meets r.Observes (fun _ => True) (r.HasSlope step) := by
    intro step
    unfold Ray.slopeAt
    have hgradient := r.problem.evalGradient_logs (r.point step)
    apply Logged.Meets.bind (hgradient.mono _ (fun _ h => h) fun _ h => h)
    . intro g hg
      exact Logged.meets_pure ⟨g, hg, rfl⟩
    . rintro _ ⟨g, rfl⟩
      exact nofun
  have hvalue : ∀ s, r.Reaches s →
      (r.valueAt s.step).Meets r.Observes (fun _ => True) (r.HasValue s.step) := by
    intro s hs
    apply (r.problem.evalObjective_logs (r.point s.step)).mono _ (fun _ h => h) fun _ h => h
    rintro _ ⟨v, rfl⟩ y w heq
    cases heq
    exact ⟨s, hs, rfl⟩
  unfold Ray.search
  apply meets_note_bind (hnote _)
  apply Logged.Meets.bind (runStages_reaches hnote (fun _ _ => trivial) hslope hvalue fuel .first)
  intro ending hending
  have hfinish := (r.finish_along (E := fun _ => True) hnote ending).withValue (Logged.meets_self _)
  exact hfinish.imp fun result hresult => ⟨ending, hending, hresult.2⟩

section Result

variable {r : Ray α n} {f : α}

theorem Ray.search_of_ending {fuel : Nat} {ending : Ending α}
    (h : (runStages r fuel (.trial (firstTrial r))).result = .ok ending) :
    (r.search fuel).result = (r.finish ending).result := by
  unfold Ray.search
  rw [result_note_bind, Logged.result_bind_of_ok h]

theorem Ray.search_first {slope : α} (hfinite : Scalar.isFinite f = true)
    (hf : r.Decreases (firstTrial r).step f) (hslope : r.HasSlope (firstTrial r).step slope)
    (hflat : slope ≥ r.curvatureSlope) (fuel : Nat) :
    (r.search (fuel + 1)).result = (r.finish (.accepted (firstTrial r).step f)).result := by
  apply search_of_ending
  have htaken := Trial.advance_taken hfinite hf.2 hslope hflat
  exact runStages_of_ending (s := .trial (firstTrial r)) hf.1 htaken fuel

theorem Ray.finish_unblocked {step : α} (hopen : r.blocking = none ∨ below step r.reach = true) (f : α) :
    (r.finish (.accepted step f)).result = .ok {
      x := r.point step, value := f, step, slope := r.slope, status := .accepted
      newlyFixed := r.newlyFixed, direction := r.direction, activeSet := r.activeSet } := by
  unfold Ray.finish Ray.fixBlocking
  dsimp only
  split
  . rfl
  . next hblocking =>
    rw [hblocking] at hopen
    rw [if_pos (hopen.resolve_left nofun)]
    rfl

end Result

theorem search_reaches (fuel : Nat) (problem : Problem α n) (parameters : Parameters α) (a : ActiveSet α n)
    (x : Vector α n) (f : α) (grad direction : Vector α n) (maxNorm : α) :
    (search fuel problem parameters a x f grad direction maxNorm).Meets
      (fun e => ∀ y v, e = .objective y v → ∃ r,
        (aim problem parameters a x f grad direction maxNorm).result = .ok (.inl r) ∧ r.Observes e)
      (fun _ => True) fun result =>
        (aim problem parameters a x f grad direction maxNorm).result = .ok (.inr result) ∨
        ∃ r ending, (aim problem parameters a x f grad direction maxNorm).result = .ok (.inl r) ∧
          r.Ends ending ∧ (r.finish ending).result = .ok result := by
  unfold search
  apply Logged.Meets.bind
    ((aim_isFrom (fun _ => nofun) (fun _ _ => trivial) _ _ _).withValue (Logged.meets_self _))
  intro aimed haimed
  obtain ⟨_, haimed⟩ := haimed
  cases aimed with
  | inr halted => exact Logged.meets_pure (Or.inl haimed)
  | inl r =>
    apply (r.search_reaches fuel).mono
    . exact fun e he _ _ _ => ⟨r, haimed, he⟩
    . exact fun _ h => h
    . rintro result ⟨ending, hends, hfinish⟩
      exact Or.inr ⟨r, ending, haimed, hends, hfinish⟩

end BoxDescent.LineSearch

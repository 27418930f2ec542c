import Mathlib.Data.Fintype.Card
import BoxDescent.Proofs.Settles
import BoxDescent.Proofs.Solver.Feasible
import BoxDescent.Proofs.Solver.Round

/-!
This module contains why the rounds of the solver come to an end: a round either counts as an iteration,
or it holds variables that were free before (`pass_progress`). As only `n` variables can be held, `n + 1`
rounds an iteration are enough, so that a run ends if its rounds do (`run_settles`).
-/

namespace BoxDescent

namespace Solver

variable {α : Type} [Scalar α] {n : Nat}

def Iterate.Advances (s s' : Iterate α n) : Prop :=
  s'.iterations = s.iterations + 1 ∨
    s'.iterations = s.iterations ∧ s.activeSet.indices.length < s'.activeSet.indices.length

variable {b : Bounds α n}

theorem Iterate.Keeps.length_le {s : Iterate α n} (hs : s.Keeps b) :
    s.activeSet.indices.length ≤ n := by
  have hcard := List.Nodup.length_le_card hs.holds.nodup
  rw [Fintype.card_fin] at hcard
  exact hcard

variable [Scalar.Lawful α]

section Progress

variable {t : Task α n} (hc : b.crossed = false) (hp : t.precision.Positive) {s : Iterate α n}
include hc hp

theorem Iterate.Keeps.search (hs : s.Keeps b) {r : SearchResult α n} (hsearch : (s.search t).result = .ok r) :
    r.Keeps b s.activeSet s.x :=
  (search_meets hc hp hs).value r hsearch

theorem Iterate.Outcome.holds_more {s' : Iterate α n} (h : s.Outcome t (.inl s')) (hs : s.Keeps b)
    {r : SearchResult α n} (hsearch : (s.search t).result = .ok r) (hstatus : r.status = .zeroStep) :
    s.activeSet.indices.length < s'.activeSet.indices.length := by
  have hr := hs.search hc hp hsearch
  have hpos := List.length_pos_iff.mpr (hr.zeroStep hstatus)
  rw [(h.of_zeroStep hsearch hstatus).2.2, hr.indices, List.length_append]
  omega

theorem pass_progress (hs : s.Keeps b) :
    (s.pass t).Meets (fun _ => True) (fun _ => True) fun
      | .inl s' => s.Advances s'
      | .inr _ => True := by
  refine ⟨fun _ _ => trivial, fun _ _ => trivial, ?_⟩
  intro next hpass
  cases next with
  | inr solution => trivial
  | inl s' =>
    have houtcome := pass_outcome hpass
    obtain ⟨r, hsearch⟩ := search_of_pass hpass
    by_cases hstatus : r.status = .zeroStep
    . refine Or.inr ⟨(houtcome.of_zeroStep hsearch hstatus).1, ?_⟩
      exact houtcome.holds_more hc hp hs hsearch hstatus
    . exact Or.inl (houtcome.of_counted hsearch hstatus).1

end Progress

section Settles

variable {t : Task α n} {E : Error α → Prop}

def Task.refuel (t : Task α n) (fuel : Nat) : Task α n :=
  { t with searchFuel := fuel }

/-- An iterate that a round goes on from has the property `I`. -/
def GoesOnFrom (I : Iterate α n → Prop) : Iterate α n ⊕ Solution α n → Prop
  | .inl s => I s
  | .inr _ => True

omit [Scalar.Lawful α] in
theorem pass_settles_of_search {s : Iterate α n} {P : SearchResult α n → Prop} {I : Iterate α n → Prop}
    (hsearch : Logged.Settles (fun fuel => s.search (t.refuel fuel)) E P)
    (hzero : ∀ r, P r → r.status = .zeroStep → (s.afterZeroStep t r).Meets (fun _ => True) E I)
    (hstep : ∀ r, P r → r.status ≠ .zeroStep → (s.afterStep t r).Meets (fun _ => True) E (GoesOnFrom I)) :
    Logged.Settles (fun fuel => s.pass (t.refuel fuel)) E (GoesOnFrom I) := by
  -- There is no other fuel in a round than that of its search.
  unfold Iterate.pass
  apply Logged.Settles.bind (Logged.Meets.settles (P := fun _ => True) (meets_note trivial trivial))
  intro _ _
  apply Logged.Settles.bind hsearch
  intro r hr
  by_cases hstatus : r.status = .zeroStep
  . simp only [if_pos hstatus]
    apply Logged.Settles.bind (x := fun _ => s.afterZeroStep t r) (hzero r hr hstatus).settles
    intro next hnext
    have hpure := Logged.meets_pure (ω := Event α n) (L := fun _ => True) (E := E)
      (b := (.inl next : Iterate α n ⊕ Solution α n)) (Q := GoesOnFrom I) hnext
    exact hpure.settles
  . simp only [if_neg hstatus]
    exact (hstep r hr hstatus).settles

theorem run_settles_of_le (hb : b.AllFinite) (rounds : Nat) {s : Iterate α n} (hkeeps : s.Keeps b)
    (hle : t.settings.budget ≤ s.iterations) :
    Logged.Settles (fun fuel => run (t.refuel fuel) rounds s) E fun _ => True := by
  have hsolution := (solution_meets (L := fun (_ : Event α n) => True) (E := E) hb hkeeps.holds
    .budgetExhausted).imp (Q := fun _ => True) fun _ _ => trivial
  have hrun := fun fuel => run_of_not_lt (t := t.refuel fuel) (Nat.not_lt.mpr hle) rounds
  simp only [hrun]
  exact Logged.Meets.settles (meets_note_bind trivial hsolution)

theorem run_settles {I : Iterate α n → Prop} (hc : b.crossed = false) (hb : b.AllFinite)
    (hp : t.precision.Positive)
    (hpass : ∀ s, s.Keeps b → I s → s.iterations < t.settings.budget →
      Logged.Settles (fun fuel => s.pass (t.refuel fuel)) E (GoesOnFrom I)) (rounds : Nat) :
    ∀ s : Iterate α n, s.Keeps b → I s →
      (t.settings.budget - s.iterations) * (n + 1) ≤ rounds + s.activeSet.indices.length →
      Logged.Settles (fun fuel => run (t.refuel fuel) rounds s) E fun _ => True := by
  -- A round counts as an iteration or holds more variables, of which there are `n`.
  induction rounds with
  | zero =>
    intro s hkeeps _ hle
    apply run_settles_of_le hb 0 hkeeps
    have hlength := hkeeps.length_le
    apply Nat.le_of_sub_eq_zero
    apply Nat.eq_zero_of_not_pos
    intro hpos
    have := Nat.le_mul_of_pos_left (n + 1) hpos
    omega
  | succ rounds ih =>
    intro s hkeeps hs hle
    by_cases hlt : s.iterations < t.settings.budget
    . have hround := ((hpass s hkeeps hs hlt).withValue
        fun fuel => pass_meets (t := t.refuel fuel) hc hb hp hkeeps).withValue
          fun fuel => pass_progress (t := t.refuel fuel) hc hp hkeeps
      have hrun := fun fuel => run_succ (t := t.refuel fuel) hlt rounds
      simp only [hrun]
      apply Logged.Settles.bind hround
      intro next hnext
      obtain ⟨⟨hinvariant, hnextKeeps⟩, hadvances⟩ := hnext
      cases next with
      | inr solution => exact (Logged.meets_pure (Q := fun _ => True) trivial).settles
      | inl s' =>
        apply ih s' hnextKeeps hinvariant
        cases hadvances with
        | inl hcounted =>
          have hlength := hkeeps.length_le
          have hsplit : t.settings.budget - s.iterations =
              t.settings.budget - s'.iterations + 1 := by omega
          rw [hsplit, Nat.succ_mul] at hle
          omega
        | inr hheld =>
          rw [hheld.1]
          omega
    . exact run_settles_of_le hb _ hkeeps (Nat.le_of_not_lt hlt)

end Settles

end Solver

section Solve

variable {α : Type} [Scalar α] [Scalar.Lawful α] {n : Nat} {problem : Problem α n} {settings : Settings α}
  {precision : Precision α} {b : Bounds α n} {x grad : Vector α n} {value : α}

theorem solve_ends_of_pass (hb : b.AllFinite) (hcheck : b.checkStart x = .ok ())
    (hp : precision.Positive) (hobjective : problem.objective x = .ok value)
    (hgradient : problem.gradient x = .ok grad) {E : Error α → Prop} {I : Solver.Iterate α n → Prop}
    (hpass : ∀ s : Solver.Iterate α n, s.Keeps b → I s → s.iterations < settings.budget →
      Logged.Settles (fun fuel => s.pass (Solver.Task.refuel {
        problem, settings, precision, searchFuel := 0
        maxNorm := Solver.maxNorm settings n grad } fuel)) E (Solver.GoesOnFrom I))
    (hstart : I (Solver.start b x value grad)) : ∃ enough, ∀ searchFuel, enough ≤ searchFuel →
      ∀ e, (solve problem settings precision searchFuel b x).result = .error e → E e := by
  obtain ⟨hc, hreached⟩ := Bounds.checkStart_eq_ok_iff.mp hcheck
  have hkeeps := Solver.keeps_start (Bounds.contains_of_not_reached hreached)
    (Bounds.separates_of_not_reached hb hreached) value grad
  have hruns := Solver.run_settles (t := {
      problem, settings, precision, searchFuel := 0, maxNorm := Solver.maxNorm settings n grad })
    hc hb hp hpass ((n + 1) * settings.budget) _ hkeeps hstart (by
      show (settings.budget - 0) * (n + 1) ≤ (n + 1) * settings.budget + 0
      rw [Nat.sub_zero, Nat.mul_comm]
      exact Nat.le_refl _)
  obtain ⟨enough, henough⟩ := hruns.eventually
  refine ⟨enough, ?_⟩
  intro searchFuel hfuel e he
  apply (henough searchFuel hfuel).error
  exact (solve_error_iff hcheck ⟨_, _, hobjective, hgradient, rfl, rfl⟩ e).mp he

end Solve

end BoxDescent

import BoxDescent.Input.Run
import BoxDescent.Proofs.Except
import BoxDescent.Proofs.Release
import BoxDescent.Proofs.Scalar.Extended
import BoxDescent.Proofs.Solver.Visited
import BoxDescent.Proofs.Exact.Parabola

/-!
This module contains the invariant of the active set over whole runs of the solver: at every search the
list of held variables matches the mask, held variables sit exactly on the bounds that are out of force,
and the point is inside the box. It needs nothing of the objective and nothing of the rounding.
-/

namespace BoxDescent

def Error.isPlain {α : Type} : Error α → Bool
  | .fault _ => true
  | .breakdown (.decrease ..) => true
  | .breakdown (.direction ..) => true
  | _ => false

theorem Error.isOffBounds_of_isPlain {α : Type} {e : Error α} (h : e.isPlain = true) :
    e.isOffBounds = false := by
  unfold isPlain at h
  split at h
  . rfl
  . rfl
  . rfl
  . cases h

theorem Error.isOffBounds_of_isOfSearch {α : Type} {e : Error α} (h : e.isOfSearch = true) :
    e.isOffBounds = false := by
  unfold isOfSearch at h
  split at h
  . rfl
  . rfl
  . rfl
  . rfl
  . cases h

namespace Solver

variable {α : Type} [Scalar α] {n : Nat} {b : Bounds α n}

structure Iterate.Keeps (s : Iterate α n) (b : Bounds α n) : Prop where
  holds : s.activeSet.Holds b s.activeSet.indices s.x
  separates : b.Separates s.x

section Factor

theorem foldlM_error {ε σ ι : Type} {P : ε → Prop} {f : σ → ι → Except ε σ}
    (hf : ∀ s i e, f s i = .error e → P e) (is : List ι) :
    ∀ (s : σ) (e : ε), is.foldlM f s = .error e → P e := by
  induction is with
  | nil =>
    intro s e h
    cases h
  | cons i is ih =>
    intro s e h
    rw [List.foldlM_cons] at h
    cases hi : f s i with
    | error e' =>
      rw [hi] at h
      cases h
      exact hf s i _ hi
    | ok s' =>
      rw [hi] at h
      exact ih s' e h

theorem direction_error {f : Factor α n} {grad : Vector α n} {fixed : Vector Bool n} {e : Error α}
    (h : f.direction grad fixed = .error e) : e.isPlain = true := by
  unfold Factor.direction at h
  dsimp only at h
  split at h
  . cases h
    rfl
  . split at h
    . cases h
      rfl
    . cases h

theorem decreaseStep_error {f : Factor α n} {fixed : Vector Bool n} {zero coeff : α} {ps : Vector α n}
    {s : Factor.Decrease.State α n} {j : Fin n} {e : Error α}
    (h : Factor.Decrease.step f fixed zero coeff ps s j = .error e) : e.isPlain = true := by
  unfold Factor.Decrease.step at h
  extract_lets at h
  split at h
  . cases h
    rfl
  . split at h
    . cases h
      rfl
    . cases h

theorem update_error {f : Factor α n} {v : Vector α n} {coeff : α} {fixed : Vector Bool n} {zero : α}
    {e : Error α} (h : f.update v coeff fixed zero = .error e) : e.isPlain = true := by
  unfold Factor.update at h
  split at h
  . cases h
  . split at h
    . cases h
    . unfold Factor.decrease at h
      dsimp only at h
      cases hfold : (unmasked fixed).foldlM (Factor.Decrease.step f fixed zero coeff
          (Triangle.lower.solve f.lower v fixed)) _ with
      | error e' =>
        rw [hfold] at h
        cases h
        exact foldlM_error (fun _ _ _ => decreaseStep_error) _ _ _ hfold
      | ok s =>
        rw [hfold] at h
        cases h

theorem updateFactor_error {zero : α} {f : Factor α n} {fixed : Vector Bool n}
    {gradChange : Vector α n} {curvature : α} {oldGrad : Vector α n} {slope : α} {e : Error α}
    (h : updateFactor zero f fixed gradChange curvature oldGrad slope = .error e) :
    e.isPlain = true := by
  unfold updateFactor at h
  split at h
  . cases h
    rfl
  . cases hu : f.update gradChange (1 / curvature) fixed zero with
    | error e' =>
      rw [hu] at h
      cases h
      exact update_error hu
    | ok g =>
      rw [hu] at h
      exact update_error h

end Factor

section Round

variable {E : Error α → Prop} (hE : ∀ e, e.isPlain = true → E e)
include hE

theorem redirect_meets {s : Iterate α n} (hs : s.Keeps b) :
    s.redirect.Meets (Event.Inside b) E (·.Keeps b) := by
  unfold Iterate.redirect
  apply Logged.Meets.bind (Logged.meets_ofExcept (Q := fun _ => True)
    (fun e he => hE e (direction_error he)) fun _ _ => trivial)
  intro direction _
  exact meets_note_bind trivial (Logged.meets_pure ⟨hs.holds, hs.separates⟩)

theorem afterZeroStep_meets {t : Task α n} {s : Iterate α n} {r : SearchResult α n}
    (hr : r.Keeps b s.activeSet s.x) :
    (s.afterZeroStep t r).Meets (Event.Inside b) E (·.Keeps b) := by
  unfold Iterate.afterZeroStep
  apply Logged.Meets.bind (t.problem.evalGradient_meets (fun _ => hE _ rfl) hr.holds.contains)
  intro grad _
  exact redirect_meets hE ⟨hr.holds, hr.separates⟩

theorem displacementConverged_meets (p : Precision α) (x start : Vector α n) :
    (displacementConverged p x start).Meets (Event.Inside b) E fun _ => True := by
  unfold displacementConverged
  apply Logged.Meets.bind (Logged.meets_ofExcept (Q := fun _ => True) ?_ fun _ _ => trivial)
  . intro change _
    split
    . exact meets_note_bind trivial (Logged.meets_pure trivial)
    . exact Logged.meets_pure trivial
  . intro e he
    unfold displacement at he
    split at he
    . cases he
    . cases he
      exact hE _ rfl

end Round

theorem report_meets {L : Event α n → Prop} {E : Error α → Prop} (hl : ∀ m, L (.note m))
    (p : Progress α n) (zero : α) (iteration : Nat) :
    (p.report zero iteration).Meets L E fun _ => True := by
  unfold Progress.report
  dsimp only
  have hcurvature : (if Scalar.abs p.totalCurvature < zero then
      note (.curvatureNegligible iteration p.totalCurvature) else pure () : Run α n Unit).Meets
      L E fun _ => True := by
    split
    . exact meets_note (hl _) trivial
    . exact Logged.meets_pure trivial
  by_cases hgradient : p.gradientTest < zero
  . rw [if_pos hgradient]
    exact meets_note_bind (hl _) hcurvature
  . rw [if_neg hgradient]
    exact hcurvature

theorem startGradient_meets (problem : Problem α n) (settings : Settings α) {x : Vector α n}
    (hx : b.Contains x) (value : α) :
    (startGradient problem settings x value).Meets (Event.Inside b) (·.isOffBounds = false)
      fun _ => True := by
  unfold startGradient
  apply Logged.Meets.bind (problem.evalGradient_meets (E := (·.isOffBounds = false)) (fun _ => rfl) hx).attempt
  intro outcome houtcome
  split
  . exact meets_note_bind trivial (Logged.meets_pure trivial)
  . apply meets_note_bind trivial
    apply meets_note_bind trivial
    split
    . exact meets_note_bind trivial (meets_note_bind trivial (Logged.meets_fail rfl))
    . exact Logged.meets_fail rfl
  . exact Logged.meets_fail (houtcome.2 _ rfl)

theorem keeps_start {x : Vector α n} (hx : b.Contains x) (hsep : b.Separates x) (value : α)
    (grad : Vector α n) : (start b x value grad).Keeps b :=
  ⟨ActiveSet.holds_ofBounds hx, hsep⟩

variable [Scalar.Lawful α]

theorem release_meets {E : Error α → Prop} (hb : b.AllFinite) {s : Iterate α n}
    (toFree : List (Fin n)) (hholds : s.activeSet.Holds b (toFree ++ s.activeSet.indices) s.x)
    (hsep : b.Separates s.x) :
    (s.release toFree).Meets (Event.Inside b) E (·.Keeps b) := by
  unfold Iterate.release
  -- Of the variables on the list, the `rest` is still held.
  have hloop := Logged.meets_foldlM (L := Event.Inside b) (E := E)
    (f := fun (s : Iterate α n) (i : Fin n) => do
      note (.freeing s.iterations i.val)
      return { s with activeSet := s.activeSet.release i s.x[i], factor := s.factor.reset i 1 })
    (fun done t => ∃ rest, toFree = done ++ rest ∧ b.Separates t.x ∧
      t.activeSet.Holds b (rest ++ t.activeSet.indices) t.x) toFree []
    { s with toFree := some toFree } ⟨toFree, rfl, hsep, hholds⟩
  have hall := hloop ?_
  . apply hall.imp
    intro t ht
    obtain ⟨rest, hrest, hsep, hholds⟩ := ht
    rw [List.nil_append, List.self_eq_append_right] at hrest
    rw [hrest, List.nil_append] at hholds
    exact ⟨hholds, hsep⟩
  . intro before i after t hsplit ht
    obtain ⟨rest, hrest, hsep, hholds⟩ := ht
    rw [List.nil_append, hrest, List.append_cancel_left_eq] at hsplit
    apply meets_note_bind trivial
    apply Logged.meets_pure
    refine ⟨after, ?_, hsep, ?_⟩
    . rw [hrest, hsplit]
      simp
    . rw [hsplit, List.cons_append] at hholds
      exact hholds.release hb hsep

theorem solution_meets {L : Event α n → Prop} {E : Error α → Prop} (hb : b.AllFinite)
    {s : Iterate α n} {held : List (Fin n)} (hholds : s.activeSet.Holds b held s.x)
    (status : SolveStatus) :
    (Logged.ofExcept (s.solution status) : Run α n _).Meets L E
      fun solution => b.Contains solution.x := by
  have hmultipliers : ∃ ms, multipliers s.activeSet s.x s.grad = .ok ms := by
    unfold multipliers
    have hall : ∀ i ∈ masked s.activeSet.fixed, s.activeSet.fixed[i] = true :=
      fun i hi => mem_masked.mp hi
    generalize masked s.activeSet.fixed = is at hall
    -- Each variable is looked at on its own, and each is held.
    induction is with
    | nil => exact ⟨[], rfl⟩
    | cons i is ih =>
      obtain ⟨m, hm⟩ := hholds.multiplier hb s.grad (hall i List.mem_cons_self)
      obtain ⟨ms, hms⟩ := ih fun j hj => hall j (List.mem_cons_of_mem i hj)
      refine ⟨(i, m) :: ms, ?_⟩
      rw [List.mapM_cons, hms, hm]
      rfl
  obtain ⟨ms, hms⟩ := hmultipliers
  apply Logged.meets_ofExcept
  . intro e he
    unfold Iterate.solution at he
    rw [hms] at he
    cases he
  . intro solution hsolution
    unfold Iterate.solution at hsolution
    rw [hms] at hsolution
    cases hsolution
    exact hholds.contains

theorem search_meets {t : Task α n} (hb : b.crossed = false) (hp : t.precision.Positive)
    {s : Iterate α n} (hs : s.Keeps b) :
    (s.search t).Meets (Event.Inside b) (·.isOfSearch = true) (·.Keeps b s.activeSet s.x) := by
  unfold Iterate.search
  exact LineSearch.search_meets hb hp hs.holds hs.separates _ _ _ _ _ _

section Round

variable {E : Error α → Prop} (hE : ∀ e, e.isPlain = true → E e)
include hE

theorem conclude_meets {t : Task α n} (hb : b.AllFinite) {s : Iterate α n} (hs : s.Keeps b)
    (curved : Bool) :
    (s.conclude t curved).Meets (Event.Inside b) E fun
      | .inl s' => s'.Keeps b
      | .inr solution => b.Contains solution.x := by
  unfold Iterate.conclude
  apply Logged.Meets.bind (Logged.meets_ofExcept (Q := fun _ => True)
    (fun e he => hE e (direction_error he)) fun _ _ => trivial)
  intro step _
  apply Logged.Meets.bind (Release.select_meets (fun _ => trivial) hb hs.holds t.problem s.grad step
    s.toFree (t.problem.evalHessianRow_meets (E := E) (fun _ => hE _ rfl) hs.holds.contains))
  intro decision hdecision
  apply Logged.Meets.bind (Logged.meets_ofExcept
    (Q := fun v => (v.1 ++ decision.indices).Perm s.activeSet.indices) hdecision.2 ?_)
  . intro verdict hverdict
    obtain ⟨toFree, released⟩ := verdict
    dsimp only
    -- The variables to free and those that stay are together the ones that were held.
    have hholds := (hs.holds.perm hverdict).withIndices decision.indices
    have hrelease := release_meets (E := E) hb
      (s := { s with activeSet := { s.activeSet with indices := decision.indices } }) toFree hholds
      hs.separates
    split
    . apply Logged.Meets.bind hrelease
      intro s' hs'
      split
      . apply meets_note_bind trivial
        apply Logged.Meets.bind (redirect_meets hE hs')
        intro s'' hs''
        exact Logged.meets_pure hs''
      . apply Logged.Meets.bind (redirect_meets hE hs')
        intro s'' hs''
        exact Logged.meets_pure hs''
    . apply Logged.Meets.bind (t.problem.evalObjective_meets (fun _ => hE _ rfl) hs.holds.contains)
      intro value _
      apply meets_note_bind trivial
      apply Logged.Meets.bind (solution_meets hb hholds .converged)
      intro solution hsolution
      exact Logged.meets_pure hsolution
  . intro verdict hverdict
    exact hdecision.1 verdict.1 verdict.2 hverdict

theorem afterStep_meets {t : Task α n} (hb : b.AllFinite) {s : Iterate α n} {r : SearchResult α n}
    (hr : r.Keeps b s.activeSet s.x) :
    (s.afterStep t r).Meets (Event.Inside b) E fun
      | .inl s' => s'.Keeps b
      | .inr solution => b.Contains solution.x := by
  unfold Iterate.afterStep
  apply Logged.Meets.bind (displacementConverged_meets hE _ _ _)
  intro displaced _
  apply Logged.Meets.bind (t.problem.evalGradient_meets (fun _ => hE _ rfl) hr.holds.contains)
  intro grad _
  apply Logged.Meets.bind (report_meets (fun _ => trivial) _ _ _)
  intro _ _
  have hmoved : (s.move r grad).Keeps b := ⟨hr.holds, hr.separates⟩
  split
  . exact conclude_meets hE hb hmoved _
  . dsimp only
    split
    . apply Logged.Meets.bind (Logged.meets_ofExcept (Q := fun _ => True)
        (fun e he => hE e (updateFactor_error he)) fun _ _ => trivial)
      intro factor _
      apply Logged.Meets.bind (redirect_meets hE (s := { s.move r grad with factor })
        ⟨hmoved.holds, hmoved.separates⟩)
      intro next hnext
      exact Logged.meets_pure hnext
    . apply meets_note_bind trivial
      apply Logged.Meets.bind (redirect_meets hE hmoved)
      intro next hnext
      exact Logged.meets_pure hnext

end Round

theorem pass_meets {t : Task α n} (hc : b.crossed = false) (hb : b.AllFinite)
    (hp : t.precision.Positive) {s : Iterate α n} (hs : s.Keeps b) :
    (s.pass t).Meets (Event.Inside b) (·.isOffBounds = false) fun
      | .inl s' => s'.Keeps b
      | .inr solution => b.Contains solution.x := by
  unfold Iterate.pass
  apply meets_note_bind trivial
  apply Logged.Meets.bind ((search_meets hc hp hs).mono (fun _ h => h)
    (fun _ => Error.isOffBounds_of_isOfSearch) fun _ h => h)
  intro r hr
  split
  . apply Logged.Meets.bind (afterZeroStep_meets (fun _ => Error.isOffBounds_of_isPlain) hr)
    intro next hnext
    exact Logged.meets_pure hnext
  . exact afterStep_meets (fun _ => Error.isOffBounds_of_isPlain) hb hr

theorem run_keeps {t : Task α n} (hc : b.crossed = false) (hb : b.AllFinite)
    (hp : t.precision.Positive) (fuel : Nat) {s : Iterate α n} (hs : s.Keeps b) :
    (run t fuel s).Meets (Event.Inside b) (·.isOffBounds = false)
      fun solution => b.Contains solution.x := by
  have hfuel : (Error.outOfFuel : Error α).isOffBounds = false := rfl
  apply run_meets (I := (·.Keeps b)) (fun _ => trivial) hfuel
  . intro s hs _
    exact pass_meets hc hb hp hs
  . intro s hs _
    exact solution_meets hb hs.holds .budgetExhausted
  . exact hs

theorem visited_keeps {t : Task α n} (hc : b.crossed = false) (hb : b.AllFinite)
    (hp : t.precision.Positive) {s₀ s : Iterate α n} (h₀ : s₀.Keeps b) (h : Visited t s₀ s) :
    s.Keeps b := by
  apply h.invariant h₀
  intro s s' hs _ hpass
  exact (pass_meets hc hb hp hs).value _ hpass

end Solver

namespace Bounds

variable {α : Type} [Scalar α] {n : Nat} {b : Bounds α n} {x : Vector α n}

theorem checkStart_eq_ok_iff :
    b.checkStart x = .ok () ↔ b.crossed = false ∧ ∀ i side, b.reached i x[i] side = false := by
  unfold checkStart
  cases b.crossed with
  | true => simp
  | false =>
    simp only [Bool.false_eq_true, ↓reduceIte, true_and]
    split
    . next h =>
      simp only [List.any_eq_true, List.mem_finRange, true_and, Bool.or_eq_true] at h
      obtain ⟨i, hi⟩ := h
      constructor
      . nofun
      . intro hnone
        cases hi with
        | inl hi => exact absurd (hnone i .lower) (ne_false_of_eq_true hi)
        | inr hi => exact absurd (hnone i .upper) (ne_false_of_eq_true hi)
    . next h =>
      simp only [List.any_eq_true, List.mem_finRange, true_and, Bool.or_eq_true, not_exists, not_or,
        Bool.not_eq_true] at h
      constructor
      . intro _ i side
        cases side with
        | lower => exact (h i).1
        | upper => exact (h i).2
      . intro _
        rfl

variable [Scalar.Lawful α]

theorem contains_of_not_reached (h : ∀ i side, b.reached i x[i] side = false) : b.Contains x := by
  intro i
  constructor
  . intro l hl hlt
    have hi := h i .lower
    rw [reached_lower hl, decide_eq_false_iff_not] at hi
    exact hi (Scalar.le_of_lt hlt)
  . intro u hu hlt
    have hi := h i .upper
    rw [reached_upper hu, decide_eq_false_iff_not] at hi
    exact hi (Scalar.le_of_lt hlt)

theorem separates_of_not_reached (hb : b.AllFinite) (h : ∀ i side, b.reached i x[i] side = false) :
    b.Separates x := by
  intro i l u hl hu hx
  have hlower := h i .lower
  rw [reached_lower hl, decide_eq_false_iff_not] at hlower
  have hupper := h i .upper
  rw [reached_upper hu, decide_eq_false_iff_not] at hupper
  have hlx := Scalar.lt_of_not_le hx (Scalar.Lawful.le_self_of_isFinite (hb i .lower l hl)) hlower
  have hxu := Scalar.lt_of_not_le (Scalar.Lawful.le_self_of_isFinite (hb i .upper u hu)) hx hupper
  exact Scalar.lt_of_lt_of_le hlx (Scalar.le_of_lt hxu)

end Bounds

namespace Input

variable {α : Type} [Scalar α]

theorem isFinite_of_sideBounds {n : Nat} {side : Side} {g : Option (Grid α)}
    {bs : Vector (Option α) n} (h : sideBounds n side g = .ok bs) {i : Fin n} {v : α}
    (hv : bs[i] = some v) : Scalar.isFinite v = true := by
  unfold sideBounds at h
  split at h
  . cases h
    rw [getElem_replicate] at hv
    cases hv
  . split at h
    . cases h
    . cases h
      rw [getElem_vectorMap] at hv
      unfold finiteBound at hv
      split at hv
      . next hfinite =>
        cases hv
        exact hfinite
      . cases hv

theorem sides_of_start {x : Grid α} {lower upper : Option (Grid α)} {s : Start α}
    (h : start x lower upper = .ok s) : sideBounds s.size .lower lower = .ok s.bounds.lower ∧
      sideBounds s.size .upper upper = .ok s.bounds.upper ∧ s.x.toArray = x.entries := by
  unfold start at h
  split at h
  . cases h
  . obtain ⟨l, hl, h⟩ := except_bind_eq_ok_iff.mp h
    obtain ⟨u, hu, h⟩ := except_bind_eq_ok_iff.mp h
    cases h
    exact ⟨hl, hu, rfl⟩

theorem allFinite_of_start {x : Grid α} {lower upper : Option (Grid α)} {s : Start α}
    (h : start x lower upper = .ok s) : s.bounds.AllFinite := by
  obtain ⟨hl, hu, _⟩ := sides_of_start h
  intro i side v hv
  cases side with
  | lower => exact isFinite_of_sideBounds hl hv
  | upper => exact isFinite_of_sideBounds hu hv

end Input

variable {α : Type} [Scalar α] [Scalar.Lawful α]

/-- At every search the list of held variables and the mask agree, the bounds in force are those of the
free variables and the other ones of the held variables, and these sit exactly on the bounds out of force.
All evaluations and the solution are inside the box, so no held variable is ever found off its bounds. -/
theorem solve_holds_activeSet {x : Grid α} {lower upper : Option (Grid α)} {s : Input.Start α}
    (hstart : Input.start x lower upper = .ok s) (hcheck : s.bounds.checkStart s.x = .ok ())
    (problem : Problem α s.size) (settings : Settings α) {precision : Precision α}
    (hp : precision.Positive) (searchFuel : Nat) :
    (∀ t, Searches problem settings precision searchFuel s.bounds s.x t →
      t.activeSet.Holds s.bounds t.activeSet.indices t.x) ∧
    (solve problem settings precision searchFuel s.bounds s.x).Meets (Event.Inside s.bounds)
      (·.isOffBounds = false) fun solution => s.bounds.Contains solution.x := by
  have hb := Input.allFinite_of_start hstart
  obtain ⟨hc, hreached⟩ := Bounds.checkStart_eq_ok_iff.mp hcheck
  have hx := Bounds.contains_of_not_reached hreached
  have hsep := Bounds.separates_of_not_reached hb hreached
  constructor
  . intro t ht
    obtain ⟨_, _, ⟨value, grad, _, _, rfl, rfl⟩, hvisited⟩ := ht
    exact (Solver.visited_keeps hc hb hp (Solver.keeps_start hx hsep value grad) hvisited).holds
  . unfold solve
    rw [hcheck]
    apply Logged.Meets.bind Logged.meets_ofExcept_ok
    intro _ _
    dsimp only
    have hrun : ∀ value grad, (Solver.run
        { problem, settings, precision, searchFuel, maxNorm := Solver.maxNorm settings s.size grad }
        ((s.size + 1) * settings.budget) (Solver.start s.bounds s.x value grad)).Meets
        (Event.Inside s.bounds) (·.isOffBounds = false)
        fun solution => s.bounds.Contains solution.x := by
      intro value grad
      exact Solver.run_keeps hc hb hp _ (Solver.keeps_start hx hsep value grad)
    have hcounted := Logged.Meets.bind (problem.evalObjective_meets (fun _ => rfl) hx) fun value _ =>
      Logged.Meets.bind (Solver.startGradient_meets problem settings hx value) fun grad _ =>
        hrun value grad
    apply Logged.Meets.bind hcounted.listen
    intro counted hsolution
    exact Logged.meets_pure hsolution

theorem solve_holds_activeSet_parabola :
    (∃ t, Searches Steep.problem .default Line.precision 100 (Line.above 0) (Line.point 3) t ∧
      t.activeSet.indices = [0] ∧ t.activeSet.Holds (Line.above 0) t.activeSet.indices t.x) ∧
    (∀ t, Searches Bowl.problem (Bowl.settings 3) Line.precision 100 (Line.above 0) (Line.point 3) t →
      t.activeSet.Holds (Line.above 0) t.activeSet.indices t.x) ∧
    (∃ solution, (solve Bowl.problem (Bowl.settings 3) Line.precision 100 (Line.above 0)
      (Line.point 3)).result = .ok solution ∧ solution.iterations = 3 ∧
      (Line.above 0).Contains solution.x) ∧
    (solve Bowl.problem (Bowl.settings 3) Line.precision 100 (Line.above 0) (Line.point 3)).Meets
      (Event.Inside (Line.above 0)) (·.isOffBounds = false) fun solution =>
        (Line.above 0).Contains solution.x := by
  have hsteep := solve_holds_activeSet Line.start_input Line.checkStart_above Steep.problem .default
    Line.precision_positive 100
  have hbowl := solve_holds_activeSet Line.start_input Line.checkStart_above Bowl.problem (Bowl.settings 3)
    Line.precision_positive 100
  have hheld : Searches Steep.problem .default Line.precision 100 (Line.above 0) (Line.point 3)
      (Steep.held 1) :=
    ⟨_, _, Steep.runs (Problem.isParabola_parabola _ _) 100,
      Steep.visited_held (Problem.isParabola_parabola _ _) one_le_two 100⟩
  obtain ⟨_, _, hfound⟩ := Bowl.solve_found 3 99 Bowl.isParabola le_rfl
  exact ⟨⟨_, hheld, rfl, hsteep.1 _ hheld⟩, hbowl.1, ⟨_, hfound, rfl, hbowl.2.value _ hfound⟩, hbowl.2⟩

end BoxDescent

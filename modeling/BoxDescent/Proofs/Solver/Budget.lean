import BoxDescent.Proofs.Solver.Point
import BoxDescent.Proofs.Solver.Progress

/-!
This module contains how many searches a run makes. A search that only holds variables finds at least one
that was free, and only rounds that count as iterations release variables, so between two such rounds there
are at most `n` searches of that kind. The rounds of a run are therefore bounded by its iterations
(`Rounds.length_le`), and the fuel of `solve` never runs out.
-/

namespace BoxDescent

variable {α : Type} [Scalar α] {n : Nat}

theorem SearchResult.Keeps.newlyFixed_free {r : SearchResult α n} {b : Bounds α n} {a : ActiveSet α n}
    {x y : Vector α n} (hr : r.Keeps b a x) (ha : a.Holds b a.indices y) {i : Fin n}
    (hi : i ∈ r.newlyFixed) : a.fixed[i] = false ∧ r.activeSet.fixed[i] = true := by
  have hnodup := hr.holds.nodup
  rw [hr.indices, List.nodup_append] at hnodup
  constructor
  . rw [← Bool.not_eq_true, ← ha.mem]
    intro hheld
    exact hnodup.2.2 i hheld i hi rfl
  . rw [← hr.holds.mem, hr.indices, List.mem_append]
    exact Or.inr hi

namespace Solver

variable {t : Task α n} {s₀ s s' : Iterate α n} {r : SearchResult α n} {rs : List (SearchResult α n)}

theorem Rounds.visited (h : Rounds t s₀ rs s) (hlt : s.iterations < t.settings.budget) :
    Visited t s₀ s := by
  induction h with
  | start => exact .start hlt
  | pass _ hbefore _ hpass ih => exact (ih hbefore).pass hpass hlt

theorem Rounds.history_length (h : Rounds t s₀ rs s)
    (h₀ : s₀.history.length = s₀.iterations + 1) : s.history.length = s.iterations + 1 := by
  induction h with
  | start => exact h₀
  | @pass rs s s' r _ _ hsearch hpass ih =>
    by_cases hstatus : r.status = .zeroStep
    . obtain ⟨hiterations, hhistory, _⟩ := (pass_outcome hpass).of_zeroStep hsearch hstatus
      rw [hiterations, hhistory, ih]
    . obtain ⟨hiterations, hhistory⟩ := (pass_outcome hpass).of_counted hsearch hstatus
      rw [hiterations, hhistory, List.length_append, ih, List.length_singleton]

theorem Rounds.iterations_le (h : Rounds t s₀ rs s) (h₀ : s₀.iterations ≤ t.settings.budget) :
    s.iterations ≤ t.settings.budget := by
  induction h with
  | start => exact h₀
  | @pass rs s s' r _ hlt hsearch hpass _ =>
    by_cases hstatus : r.status = .zeroStep
    . rw [((pass_outcome hpass).of_zeroStep hsearch hstatus).1]
      exact Nat.le_of_lt hlt
    . rw [((pass_outcome hpass).of_counted hsearch hstatus).1]
      exact hlt

variable {b : Bounds α n} [Scalar.Lawful α] (hc : b.crossed = false) (hb : b.AllFinite)
  (hp : t.precision.Positive)
include hc hb hp

theorem Rounds.keeps (h : Rounds t s₀ rs s) (h₀ : s₀.Keeps b) : s.Keeps b := by
  induction h with
  | start => exact h₀
  | pass _ _ _ hpass ih => exact (pass_meets hc hb hp ih).value _ hpass

theorem Rounds.zeros_length_le (h : Rounds t s₀ rs s) (h₀ : s₀.Keeps b) :
    ∀ before zeros, rs = before ++ zeros → (∀ z ∈ zeros, z.status = .zeroStep) →
      zeros.length ≤ s.activeSet.indices.length := by
  induction h with
  | start =>
    intro before zeros hsplit _
    rw [(List.append_eq_nil_iff.mp hsplit.symm).2]
    exact Nat.zero_le _
  | @pass rs s s' r hrounds hlt hsearch hpass ih =>
    intro before zeros hsplit hzeros
    cases List.eq_nil_or_concat' zeros with
    | inl hnil =>
      rw [hnil]
      exact Nat.zero_le _
    | inr hlast =>
      obtain ⟨zeros', z, rfl⟩ := hlast
      rw [← List.append_assoc] at hsplit
      obtain ⟨hinit, hz⟩ := List.append_inj' hsplit rfl
      rw [List.singleton_inj] at hz
      subst hz
      have hbefore := ih before zeros' hinit fun z hz => hzeros z (List.mem_append_left _ hz)
      have hmore := (pass_outcome hpass).holds_more hc hp (hrounds.keeps hc hb hp h₀) hsearch
        (hzeros r (List.mem_append_right _ List.mem_cons_self))
      rw [List.length_append, List.length_singleton]
      omega

theorem Rounds.length_le (h : Rounds t s₀ rs s) (h₀ : s₀.Keeps b) :
    rs.length ≤ s.iterations * (n + 1) + s.activeSet.indices.length := by
  induction h with
  | start => exact Nat.zero_le _
  | @pass rs s s' r hrounds hlt hsearch hpass ih =>
    have hkeeps := hrounds.keeps hc hb hp h₀
    rw [List.length_append, List.length_singleton]
    by_cases hstatus : r.status = .zeroStep
    . have hmore := (pass_outcome hpass).holds_more hc hp hkeeps hsearch hstatus
      rw [((pass_outcome hpass).of_zeroStep hsearch hstatus).1]
      omega
    . have hall := hkeeps.length_le
      rw [((pass_outcome hpass).of_counted hsearch hstatus).1, Nat.succ_mul]
      omega

theorem Rounds.length_lt (h : Rounds t s₀ rs s) (h₀ : s₀.Keeps b)
    (hlt : s.iterations < t.settings.budget) : rs.length < (n + 1) * t.settings.budget := by
  have hlength := h.length_le hc hb hp h₀
  have hall := (h.keeps hc hb hp h₀).length_le
  calc
    rs.length < (s.iterations + 1) * (n + 1) := by
      rw [Nat.succ_mul]
      omega
    _ ≤ t.settings.budget * (n + 1) := Nat.mul_le_mul_right _ hlt
    _ = (n + 1) * t.settings.budget := Nat.mul_comm _ _

theorem run_ends_of_budget (h₀ : s₀.Keeps b) : ∃ rs s, Rounds t s₀ rs s ∧
    s.Ends t (run t ((n + 1) * t.settings.budget) s₀).result := by
  obtain ⟨rs, s, hrounds, hends⟩ := run_ends t ((n + 1) * t.settings.budget) s₀
  cases hends with
  | inl hends => exact ⟨rs, s, hrounds, hends⟩
  | inr hfuel =>
    have hlength := hrounds.length_lt hc hb hp h₀ hfuel.1
    omega

theorem search_error_of_pass (hs : s.Keeps b) {e : Error α} (h : (s.pass t).result = .error e) :
    (s.search t).result = .error e ∨ e.isPlain = true := by
  unfold Iterate.pass at h
  rw [result_note_bind, Logged.result_bind] at h
  cases hsearch : (s.search t).result with
  | error e' =>
    rw [hsearch] at h
    cases h
    exact Or.inl rfl
  | ok r =>
    have hr := hs.search hc hp hsearch
    refine Or.inr ?_
    rw [hsearch] at h
    dsimp only [Except.bind] at h
    split at h
    . have hzero := Logged.Meets.bind (afterZeroStep_meets (t := t) (E := (·.isPlain = true))
        (fun _ h => h) hr) (f := fun s' => pure (.inl s' : Iterate α n ⊕ Solution α n))
        (Q := fun _ => True) fun _ _ => Logged.meets_pure trivial
      exact hzero.error e h
    . exact (afterStep_meets (t := t) (E := (·.isPlain = true)) (fun _ h => h) hb hr).error e h

end Solver

variable [Scalar.Lawful α] {problem : Problem α n} {settings : Settings α} {precision : Precision α}
  {searchFuel : Nat} {b : Bounds α n} {x : Vector α n} {t : Solver.Task α n} {s₀ : Solver.Iterate α n}

theorem Runs.keeps (h : Runs problem settings precision searchFuel b x t s₀) (hb : b.AllFinite)
    (hcheck : b.checkStart x = .ok ()) : s₀.Keeps b := by
  obtain ⟨value, grad, _, _, _, rfl⟩ := h
  obtain ⟨_, hreached⟩ := Bounds.checkStart_eq_ok_iff.mp hcheck
  exact Solver.keeps_start (Bounds.contains_of_not_reached hreached)
    (Bounds.separates_of_not_reached hb hreached) value grad

section Solve

variable (hb : b.AllFinite) (hcheck : b.checkStart x = .ok ()) (hp : precision.Positive)
include hb hcheck hp

theorem Runs.ends (h : Runs problem settings precision searchFuel b x t s₀) :
    ∃ rs s, Solver.Rounds t s₀ rs s ∧ s.Keeps b ∧
      s.Ends t (Solver.run t ((n + 1) * settings.budget) s₀).result := by
  have hc := (Bounds.checkStart_eq_ok_iff.mp hcheck).1
  have hkeeps := h.keeps hb hcheck
  obtain ⟨value, grad, _, _, rfl, _⟩ := h
  obtain ⟨rs, s, hrounds, hends⟩ := Solver.run_ends_of_budget (t := {
    problem, settings, precision, searchFuel, maxNorm := Solver.maxNorm settings n grad }) hc hb hp hkeeps
  exact ⟨rs, s, hrounds, hrounds.keeps hc hb hp hkeeps, hends⟩

theorem Runs.error (h : Runs problem settings precision searchFuel b x t s₀) {e : Error α}
    (hrun : (Solver.run t ((n + 1) * settings.budget) s₀).result = .error e) :
    ∃ s, Solver.Visited t s₀ s ∧ s.Keeps b ∧ ((s.search t).result = .error e ∨ e.isPlain = true) := by
  have hc := (Bounds.checkStart_eq_ok_iff.mp hcheck).1
  obtain ⟨rs, s, hrounds, hkeeps, hends⟩ := h.ends hb hcheck hp
  obtain ⟨_, _, _, _, rfl, _⟩ := h
  rw [hrun] at hends
  cases hends.of_error with
  | inl hfailed =>
    exact ⟨s, hrounds.visited hfailed.1, hkeeps, Solver.search_error_of_pass hc hb hp hkeeps hfailed.2⟩
  | inr hexhausted =>
    exact ((Solver.solution_meets (L := fun (_ : Event α n) => True) (E := fun _ => False) hb
      hkeeps.holds .budgetExhausted).error e hexhausted).elim

theorem solve_ne_outOfFuel
    (hsearches : ∀ t s₀ s, Runs problem settings precision searchFuel b x t s₀ →
      Solver.Visited t s₀ s → (s.search t).result ≠ .error .outOfFuel) :
    (solve problem settings precision searchFuel b x).result ≠ .error .outOfFuel := by
  intro hfuel
  obtain ⟨_, value, grad, hvalue, hgrad⟩ := started_of_outOfFuel hfuel
  have hruns : Runs problem settings precision searchFuel b x _ _ := ⟨value, grad, hvalue, hgrad, rfl, rfl⟩
  obtain ⟨s, hvisited, _, herror⟩ :=
    hruns.error hb hcheck hp ((solve_error_iff hcheck hruns _).mp hfuel)
  cases herror with
  | inl hsearch => exact hsearches _ _ s hruns hvisited hsearch
  | inr hplain => cases hplain

theorem solve_ends {solution : Solution α n}
    (h : (solve problem settings precision searchFuel b x).result = .ok solution) :
    ∃ t s₀ rs s found, Runs problem settings precision searchFuel b x t s₀ ∧ Solver.Rounds t s₀ rs s ∧
      s.Keeps b ∧
      (s.iterations < settings.budget ∧ (s.pass t).result = .ok (.inr found) ∨
        ¬s.iterations < settings.budget ∧ s.solution .budgetExhausted = .ok found) ∧
      ∃ objectiveCount gradientCount, solution = { found with objectiveCount, gradientCount } := by
  obtain ⟨t, s₀, found, hruns, hfound, hcounts⟩ := solve_found h
  obtain ⟨rs, s, hrounds, hkeeps, hends⟩ := hruns.ends hb hcheck hp
  have hsettings : t.settings = settings := by
    obtain ⟨_, _, _, _, rfl, _⟩ := hruns
    rfl
  rw [hfound] at hends
  have hcases := hends.of_ok
  rw [hsettings] at hcases
  exact ⟨t, s₀, rs, s, found, hruns, hrounds, hkeeps, hcases, hcounts⟩

theorem solve_counts {solution : Solution α n}
    (h : (solve problem settings precision searchFuel b x).result = .ok solution) :
    solution.iterations ≤ settings.budget ∧ solution.history.length = solution.iterations + 1 ∧
      (solution.status = .budgetExhausted → solution.iterations = settings.budget) := by
  obtain ⟨t, s₀, rs, s, found, hruns, hrounds, _, hends, _, _, rfl⟩ := solve_ends hb hcheck hp h
  obtain ⟨value, grad, _, _, rfl, rfl⟩ := hruns
  have hhistory := hrounds.history_length rfl
  have hle := hrounds.iterations_le (Nat.zero_le _)
  cases hends with
  | inl hlast =>
    cases Solver.pass_outcome hlast.2 with
    | finish =>
      refine ⟨hlast.1, ?_, nofun⟩
      rw [List.length_append, hhistory, List.length_singleton]
  | inr hexhausted =>
    obtain ⟨ms, _, rfl⟩ := Solver.solution_eq hexhausted.2
    exact ⟨hle, hhistory, fun _ => Nat.le_antisymm hle (Nat.le_of_not_lt hexhausted.1)⟩

end Solve

/-- A search that takes no step holds variables that were free, at most `n` such searches follow each
other, and in all there are at most `n + 1` searches for each of the iterations that are allowed. So the
run ends if its searches do, and a solution has an objective for each iteration and one for the start. -/
theorem solve_within_budget {x : Grid α} {lower upper : Option (Grid α)} {s : Input.Start α}
    (hstart : Input.start x lower upper = .ok s) (hcheck : s.bounds.checkStart s.x = .ok ())
    (problem : Problem α s.size) {settings : Settings α} (hsettings : settings.Valid)
    {precision : Precision α} (hp : precision.Positive) (searchFuel : Nat) :
    (∀ t s₀ rs current, Runs problem settings precision searchFuel s.bounds s.x t s₀ →
      Solver.Rounds t s₀ rs current → current.iterations < settings.budget →
      rs.length + 1 ≤ (s.size + 1) * settings.budget ∧
      ∀ r, (current.search t).result = .ok r → r.status = .zeroStep →
        (∃ held, held ≠ [] ∧ r.activeSet.indices = current.activeSet.indices ++ held ∧
          ∀ i ∈ held, current.activeSet.fixed[i] = false ∧ r.activeSet.fixed[i] = true) ∧
        ∀ before zeros, rs = before ++ zeros → (∀ z ∈ zeros, z.status = .zeroStep) →
          zeros.length + 1 ≤ s.size) ∧
    ((∀ t s₀ current, Runs problem settings precision searchFuel s.bounds s.x t s₀ →
      Solver.Visited t s₀ current → (current.search t).result ≠ .error .outOfFuel) →
      (solve problem settings precision searchFuel s.bounds s.x).result ≠ .error .outOfFuel) ∧
    ∀ solution, (solve problem settings precision searchFuel s.bounds s.x).result = .ok solution →
      solution.iterations ≤ settings.maxIterations ∧
      solution.history.length = solution.iterations + 1 ∧
      (solution.status = .budgetExhausted → solution.iterations = settings.maxIterations) := by
  have hb := Input.allFinite_of_start hstart
  have hc := (Bounds.checkStart_eq_ok_iff.mp hcheck).1
  have hbudget : (settings.budget : Int) = settings.maxIterations :=
    Int.toNat_of_nonneg (Int.le_of_lt hsettings.1)
  refine ⟨?_, solve_ne_outOfFuel hb hcheck hp, ?_⟩
  . intro t s₀ rs current hruns hrounds hlt
    have h₀ := hruns.keeps hb hcheck
    obtain ⟨_, _, _, _, rfl, _⟩ := hruns
    have hkeeps := hrounds.keeps hc hb hp h₀
    refine ⟨hrounds.length_lt hc hb hp h₀ hlt, ?_⟩
    intro r hsearch hstatus
    have hr := hkeeps.search hc hp hsearch
    refine ⟨⟨r.newlyFixed, hr.zeroStep hstatus, hr.indices, ?_⟩, ?_⟩
    . intro i hi
      exact hr.newlyFixed_free hkeeps.holds hi
    . intro before zeros hsplit hzeros
      have hheld := hrounds.zeros_length_le hc hb hp h₀ before zeros hsplit hzeros
      have hpos := List.length_pos_iff.mpr (hr.zeroStep hstatus)
      have hall := List.Nodup.length_le_card hr.holds.nodup
      rw [Fintype.card_fin, hr.indices, List.length_append] at hall
      omega
  . intro solution hsolution
    obtain ⟨hle, hhistory, hexhausted⟩ := solve_counts hb hcheck hp hsolution
    rw [← hbudget, Int.ofNat_le]
    refine ⟨hle, hhistory, ?_⟩
    intro hstatus
    rw [hexhausted hstatus]

theorem solve_within_budget_parabola :
    (∃ t s₀ r, Runs Steep.problem .default Line.precision 100 (Line.above 0) (Line.point 3) t s₀ ∧
      (s₀.search t).result = .ok r ∧ r.status = .zeroStep ∧ ∃ held, held ≠ [] ∧
        r.activeSet.indices = s₀.activeSet.indices ++ held ∧
        ∀ i ∈ held, s₀.activeSet.fixed[i] = false ∧ r.activeSet.fixed[i] = true) ∧
    (∃ solution, (solve Bowl.problem (Bowl.settings 1) Line.precision 100 (Line.above 0)
      (Line.point 3)).result = .ok solution ∧ solution.status = .budgetExhausted ∧
      solution.iterations = (Bowl.settings 1).maxIterations ∧
      solution.history.length = solution.iterations + 1) ∧
    (solve Bowl.problem (Bowl.settings 3) Line.precision 100 (Line.above 0) (Line.point 3)).result ≠
      .error .outOfFuel := by
  have hbudget : 0 < (Settings.default : Settings Extended).budget := by
    show 0 < 200
    omega
  have hparabola := Problem.isParabola_parabola 400000000 1
  have hsteep := solve_within_budget Line.start_input Line.checkStart_above Steep.problem
    Settings.default_valid Line.precision_positive 100
  have hone := solve_within_budget Line.start_input Line.checkStart_above Bowl.problem
    (Bowl.settings_valid one_pos) Line.precision_positive 100
  have hthree := solve_within_budget Line.start_input Line.checkStart_above Bowl.problem
    (Bowl.settings_valid three_pos) Line.precision_positive 100
  refine ⟨?_, ?_, hthree.2.1 ?_⟩
  . have hsearch := Steep.start_search Steep.problem one_le_two 100
    have hsnap := (hsteep.1 _ _ _ _ (Steep.runs hparabola 100) .start hbudget).2 _ hsearch rfl
    exact ⟨_, _, _, Steep.runs hparabola 100, hsearch, rfl, hsnap.1⟩
  . obtain ⟨_, _, hexhausted⟩ := Bowl.solve_exhausted 99 Bowl.isParabola
    obtain ⟨_, hlength, hiterations⟩ := hone.2.2 _ hexhausted
    exact ⟨_, hexhausted, rfl, hiterations rfl, hlength⟩
  . exact fun _ _ _ => Bowl.search_ne_outOfFuel 3 99 Bowl.isParabola

end BoxDescent

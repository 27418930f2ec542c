import BoxDescent.DerivativeCheck
import BoxDescent.Proofs.Scalar.Lawful
import BoxDescent.Proofs.Except

/-!
This module contains what the check of derivatives compares (`checkDerivatives_eq_ok_iff`) and what its
verdict says about the comparisons (`Result.ok_iff`).
-/

namespace BoxDescent

variable {α : Type} [Scalar α] {m n : Nat}

namespace DerivativeCheck

theorem Comparison.isBad_iff {tolerance : α} {c : Comparison α} :
    c.isBad tolerance = true ↔ tolerance < c.error :=
  decide_eq_true_iff

/-- An error is let pass not only if it is small: one that does not compare with the tolerance passes as
well. -/
theorem Comparison.isBad_eq_false_iff [Scalar.Lawful α] {tolerance : α} {c : Comparison α} :
    c.isBad tolerance = false ↔
      c.error ≤ tolerance ∨ ¬c.error ≤ c.error ∨ ¬tolerance ≤ tolerance := by
  rw [← Bool.not_eq_true, isBad_iff]
  constructor
  . intro hbad
    by_cases herror : c.error ≤ c.error
    . by_cases htolerance : tolerance ≤ tolerance
      . left
        apply Classical.byContradiction
        intro h
        exact hbad (Scalar.lt_of_not_le herror htolerance h)
      . exact Or.inr (Or.inr htolerance)
    . exact Or.inr (Or.inl herror)
  . rintro (h | h | h) hlt
    . exact Scalar.not_le_of_lt hlt h
    . exact h (Scalar.Lawful.le_self_right (Scalar.le_of_lt hlt))
    . exact h (Scalar.Lawful.le_self_left (Scalar.le_of_lt hlt))

omit [Scalar α] in
theorem getElem_compare (supplied difference : Vector α n) (i : Fin n) :
    (compare supplied difference)[i] = { supplied := supplied[i], difference := difference[i] } := by
  unfold compare
  rw [getElem_vectorOfFn]

namespace Result

variable {r : Result α m n}

theorem mem_badGradient {i : Fin m} :
    i ∈ r.badGradient ↔ r.gradient[i].isBad r.tolerance = true := by
  unfold badGradient
  rw [List.mem_filter]
  exact ⟨fun h => h.2, fun h => ⟨List.mem_finRange i, h⟩⟩

theorem pairwise_badGradient : r.badGradient.Pairwise (· < ·) :=
  (List.pairwise_lt_finRange m).filter _

theorem badGradient_eq_nil_iff :
    r.badGradient = [] ↔ ∀ i : Fin m, r.gradient[i].isBad r.tolerance = false := by
  simp only [List.eq_nil_iff_forall_not_mem, mem_badGradient, Bool.not_eq_true]

theorem badRow_eq_nil_iff {row : Option (Vector (Comparison α) n)} :
    r.badRow row = [] ↔ ∀ compared, row = some compared →
      ∀ j : Fin n, compared[j].isBad r.tolerance = false := by
  cases row with
  | none => exact ⟨fun _ => nofun, fun _ => rfl⟩
  | some compared =>
    unfold badRow
    simp only [List.filter_eq_nil_iff, List.mem_finRange, Bool.not_eq_true, true_implies,
      Option.some.injEq, forall_eq']

theorem badHessian_eq_nil_iff :
    r.badHessian = [] ↔ ∀ rows, r.hessian = some rows → ∀ (i : Fin n) (compared), rows[i] = some compared →
      ∀ j : Fin n, compared[j].isBad r.tolerance = false := by
  unfold badHessian
  cases r.hessian with
  | none => exact ⟨fun _ => nofun, fun _ => rfl⟩
  | some rows =>
    simp only [List.flatMap_eq_nil_iff, List.mem_finRange, List.map_eq_nil_iff, badRow_eq_nil_iff,
      true_implies, Option.some.injEq, forall_eq']

theorem ok_iff :
    r.ok = true ↔ (∀ i : Fin m, r.gradient[i].isBad r.tolerance = false) ∧
      ∀ rows, r.hessian = some rows → ∀ (i : Fin n) (compared), rows[i] = some compared →
        ∀ j : Fin n, compared[j].isBad r.tolerance = false := by
  unfold ok
  rw [Bool.and_eq_true, List.isEmpty_iff, List.isEmpty_iff, badGradient_eq_nil_iff,
    badHessian_eq_nil_iff]

end Result

structure Result.IsOf (r : Result α n n) (problem : Problem α n) (root step : α) (x : Vector α n) :
    Prop where
  gradient : ∃ supplied differences, problem.gradient x = .ok supplied ∧
    forwardDifferences root step problem.objective x = .ok differences ∧
      r.gradient = compare supplied differences
  absent : problem.hessianRow = none → r.hessian = none
  rows : ∀ row, problem.hessianRow = some row → ∃ rows, r.hessian = some rows ∧
    ∀ i : Fin n, ∃ supplied differences, row x i = .ok supplied ∧
      forwardDifferences root step (fun z => return (← problem.gradient z)[i]) x = .ok differences ∧
        rows[i] = supplied.map (compare · differences)

end DerivativeCheck

open DerivativeCheck

theorem checkDerivatives_eq_ok_iff {problem : Problem α n} {root tolerance : α} {x : Vector α n}
    {step : Option α} {r : Result α n n} :
    checkDerivatives problem root x step tolerance = .ok r ↔
      r.tolerance = tolerance ∧ r.IsOf problem root (step.getD (defaultStep root x)) x := by
  unfold checkDerivatives DerivativeCheck.run
  constructor
  . intro h
    obtain ⟨supplied, hsupplied, h⟩ := except_bind_eq_ok_iff.mp h
    obtain ⟨differences, hdifferences, h⟩ := except_bind_eq_ok_iff.mp h
    cases hhessian : problem.hessianRow with
    | none =>
      rw [hhessian] at h
      cases h
      refine ⟨rfl, ⟨supplied, differences, hsupplied, hdifferences, rfl⟩, fun _ => rfl, ?_⟩
      rw [hhessian]
      exact nofun
    | some row =>
      rw [hhessian] at h
      obtain ⟨rows, hrows, h⟩ := except_bind_eq_ok_iff.mp h
      cases h
      refine ⟨rfl, ⟨supplied, differences, hsupplied, hdifferences, rfl⟩, ?_, ?_⟩
      . rw [hhessian]
        exact nofun
      . intro row hrow
        cases hhessian.symm.trans hrow
        refine ⟨rows, rfl, ?_⟩
        intro i
        obtain ⟨s, hs, hi⟩ := except_bind_eq_ok_iff.mp (ofFnM_eq_ok_iff.mp hrows i)
        obtain ⟨d, hd, hi⟩ := except_bind_eq_ok_iff.mp hi
        exact ⟨s, d, hs, hd, (Except.ok.inj hi).symm⟩
  . rintro ⟨rfl, ⟨supplied, differences, hsupplied, hdifferences, hgradient⟩, habsent, hrows⟩
    refine except_bind_eq_ok_iff.mpr ⟨supplied, hsupplied, ?_⟩
    refine except_bind_eq_ok_iff.mpr ⟨differences, hdifferences, ?_⟩
    rw [← hgradient]
    cases hhessian : problem.hessianRow with
    | none =>
      rw [← habsent hhessian]
      rfl
    | some row =>
      obtain ⟨rows, hresult, hrow⟩ := hrows row hhessian
      refine except_bind_eq_ok_iff.mpr ⟨rows, ?_, ?_⟩
      . rw [ofFnM_eq_ok_iff]
        intro i
        obtain ⟨s, d, hs, hd, hi⟩ := hrow i
        refine except_bind_eq_ok_iff.mpr ⟨s, hs, ?_⟩
        refine except_bind_eq_ok_iff.mpr ⟨d, hd, ?_⟩
        rw [hi]
        rfl
      . rw [← hresult]
        rfl

end BoxDescent

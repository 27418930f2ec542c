import BoxDescent.Proofs.Input.Check
import BoxDescent.Proofs.Exact.Vector

/-!
This module contains what the verdict of a derivative check is worth. The error of a comparison is undefined
as soon as the supplied value is not finite or the difference is undefined, and an undefined error passes
(`Input.checkDerivatives_ok_iff`).
-/

namespace BoxDescent

open Extended

variable {m n : Nat}

namespace DerivativeCheck

structure Comparison.IsDefined (c : Comparison Extended) : Prop where
  supplied : Scalar.isFinite c.supplied = true
  difference : c.difference ≠ .nan

namespace Comparison

theorem error_finite (s d : ℝ) :
    error { supplied := Extended.finite s, difference := .finite d } = .finite (|s - d| / max |s| 1) := by
  unfold error
  rw [finite_sub, abs_finite, abs_finite, one_eq, maximum_finite,
    finite_div (lt_max_of_lt_right one_pos).ne']

theorem error_infinite (s : ℝ) {d : Extended} (hd : d = .posInf ∨ d = .negInf) :
    error { supplied := Extended.finite s, difference := d } = .posInf := by
  have habs : Scalar.abs (Extended.finite s - d) = .posInf := by
    obtain rfl | rfl := hd
    . rfl
    . rfl
  unfold error
  rw [habs, abs_finite, one_eq, maximum_finite]
  exact if_neg (lt_max_of_lt_right one_pos).not_gt

theorem error_of_infinite {s : Extended} (hs : s = .posInf ∨ s = .negInf) (d : Extended) :
    error { supplied := s, difference := d } = .nan := by
  have hsize : Scalar.maximum (Scalar.abs s) 1 = .posInf := by
    obtain rfl | rfl := hs
    . exact if_pos (Or.inl trivial)
    . exact if_pos (Or.inl trivial)
  unfold error
  rw [hsize]
  obtain rfl | rfl := hs
  . cases d <;> rfl
  . cases d <;> rfl

theorem error_nan (s : Extended) : error { supplied := s, difference := Extended.nan } = .nan := by
  unfold error
  rw [sub_nan]
  exact nan_div

theorem error_of_nan (d : Extended) : error { supplied := Extended.nan, difference := d } = .nan := by
  unfold error
  rw [nan_sub]
  exact nan_div

theorem error_eq_nan_iff {c : Comparison Extended} : c.error = .nan ↔ ¬c.IsDefined := by
  obtain ⟨s, d⟩ := c
  cases s with
  | finite s =>
    cases d with
    | finite d =>
      rw [error_finite]
      exact ⟨nofun, fun h => absurd ⟨rfl, nofun⟩ h⟩
    | posInf =>
      rw [error_infinite s (Or.inl rfl)]
      exact ⟨nofun, fun h => absurd ⟨rfl, nofun⟩ h⟩
    | negInf =>
      rw [error_infinite s (Or.inr rfl)]
      exact ⟨nofun, fun h => absurd ⟨rfl, nofun⟩ h⟩
    | nan => exact ⟨fun _ h => h.difference rfl, fun _ => error_nan _⟩
  | posInf => exact ⟨fun _ h => Bool.false_ne_true h.supplied, fun _ => error_of_infinite (Or.inl rfl) d⟩
  | negInf => exact ⟨fun _ h => Bool.false_ne_true h.supplied, fun _ => error_of_infinite (Or.inr rfl) d⟩
  | nan => exact ⟨fun _ h => Bool.false_ne_true h.supplied, fun _ => error_of_nan d⟩

theorem passes_iff {tolerance : Extended} {c : Comparison Extended} :
    c.isBad tolerance = false ↔ c.error ≤ tolerance ∨ ¬c.IsDefined ∨ tolerance = .nan := by
  rw [isBad_eq_false_iff, le_self_iff, not_not, error_eq_nan_iff, le_self_iff, not_not]

end Comparison

structure Result.IsComplete (r : Result Extended m n) : Prop where
  gradient : ∀ i : Fin m, r.gradient[i].IsDefined
  hessian : ∀ rows, r.hessian = some rows → ∀ i : Fin n, ∃ row, rows[i] = some row ∧
    ∀ j : Fin n, row[j].IsDefined

structure Result.IsAccurate (r : Result Extended m n) (tolerance : Extended) : Prop where
  gradient : ∀ i : Fin m, r.gradient[i].error ≤ tolerance
  hessian : ∀ rows, r.hessian = some rows → ∀ i : Fin n, ∃ row, rows[i] = some row ∧
    ∀ j : Fin n, row[j].error ≤ tolerance

section Differences

variable {root : Extended} {h : ℝ} {x : Fin n → ℝ} {f : Vector Extended n → Except (Fault Extended) Extended}

theorem stepFor_finite (hh : h ≠ 0) (xi : ℝ) : stepFor root (.finite h) (.finite xi) = .finite h := by
  unfold stepFor
  rw [finite_add, finite_sub, zero_eq, equal_finite, add_sub_cancel_left, decide_eq_false hh]
  rfl

theorem forwardDifferences_ofReals (hh : h ≠ 0) {f₀ : Extended} {f₁ : Fin n → Extended}
    (hf₀ : f (ofReals x) = .ok f₀) (hf₁ : ∀ i, f (ofReals (x + Pi.single i h)) = .ok (f₁ i)) :
    forwardDifferences root (.finite h) f (ofReals x) =
      .ok (Vector.ofFn fun i => (f₁ i - f₀) / .finite h) := by
  unfold forwardDifferences
  refine except_bind_eq_ok_iff.mpr ⟨f₀, hf₀, ?_⟩
  rw [ofFnM_eq_ok_iff]
  intro i
  have hshifted : Function.update x i (x i + h) = x + Pi.single i h := by
    funext j
    rw [Pi.add_apply]
    by_cases hij : j = i
    . rw [hij, Function.update_self, Pi.single_eq_same]
    . rw [Function.update_of_ne hij, Pi.single_eq_of_ne hij, add_zero]
  rw [getElem_ofReals, stepFor_finite hh, finite_add]
  dsimp only
  rw [ofReals_set, hshifted]
  refine except_bind_eq_ok_iff.mpr ⟨f₁ i, hf₁ i, ?_⟩
  rw [finite_sub, add_sub_cancel_left, getElem_vectorOfFn]
  rfl

end Differences

end DerivativeCheck

open DerivativeCheck

/-- What has no error that compares with the tolerance passes the check; if there is no such derivative, the
check is sound. -/
theorem Input.checkDerivatives_ok_iff {model : Model Extended} {root tolerance : Extended}
    {x : Vector Extended n} {step : Option Extended} {printed : Bool} {r : Result Extended m n}
    (h : Input.checkDerivatives model root x step tolerance printed = .ok ⟨m, r⟩) :
    Input.IsOfModel r model root (step.getD (defaultStep root x)) x ∧
      (r.ok = true ↔
        (∀ i : Fin m, r.gradient[i].error ≤ tolerance ∨ ¬r.gradient[i].IsDefined ∨ tolerance = .nan) ∧
          ∀ rows, r.hessian = some rows → ∀ (i : Fin n) (row), rows[i] = some row →
            ∀ j : Fin n, row[j].error ≤ tolerance ∨ ¬row[j].IsDefined ∨ tolerance = .nan) ∧
      (r.IsComplete → tolerance ≠ .nan → (r.ok = true ↔ r.IsAccurate tolerance)) := by
  obtain ⟨rfl, hof⟩ := Input.isOfModel_of_checkDerivatives h
  have hok := r.ok_iff
  simp only [Comparison.passes_iff] at hok
  refine ⟨hof, hok, ?_⟩
  intro hcomplete htolerance
  rw [hok]
  have hwithin : ∀ c : Comparison Extended, c.IsDefined →
      c.error ≤ r.tolerance ∨ ¬c.IsDefined ∨ r.tolerance = .nan → c.error ≤ r.tolerance := by
    rintro c hc (hle | hundefined | hnan)
    . exact hle
    . exact absurd hc hundefined
    . exact absurd hnan htolerance
  constructor
  . rintro ⟨hgradient, hhessian⟩
    refine ⟨fun i => hwithin _ (hcomplete.gradient i) (hgradient i), ?_⟩
    intro rows hrows i
    obtain ⟨row, hrow, hdefined⟩ := hcomplete.hessian rows hrows i
    exact ⟨row, hrow, fun j => hwithin _ (hdefined j) (hhessian rows hrows i row hrow j)⟩
  . intro haccurate
    refine ⟨fun i => Or.inl (haccurate.gradient i), ?_⟩
    intro rows hrows i row hrow j
    obtain ⟨row', hrow', hle⟩ := haccurate.hessian rows hrows i
    cases hrow.symm.trans hrow'
    exact Or.inl (hle j)

namespace DerivativeCheck.Supplied

def problem (slope : Extended) (row : Option (Option Extended)) : Problem Extended 1 :=
  { objective := fun x => .ok x[(0 : Fin 1)]
    gradient := fun _ => .ok (Vector.ofFn fun _ => slope)
    hessianRow := row.map fun row _ _ => .ok (row.map fun entry => Vector.ofFn fun _ => entry) }

noncomputable def model (slope : Extended) (row : Option (Option Extended)) : Model Extended :=
  .formulas (.var 0) [.const slope] (row.map fun row => [row.map fun entry => [.const entry]])

theorem fits_model (slope : Extended) (row : Option (Option Extended)) : (model slope row).Fits 1 := by
  apply Model.fits_formulas rfl
  intro rows hrows entries hentries
  obtain ⟨row, rfl, rfl⟩ := Option.map_eq_some_iff.mp hrows
  obtain ⟨entry, rfl, rfl⟩ := Option.map_eq_some_iff.mp (List.mem_singleton.mp hentries).symm
  rfl

theorem problem_model (slope : Extended) (row : Option (Option Extended)) :
    (model slope row).problem 1 = problem slope row := by
  have hsingle : ∀ value : Extended, (#v[value] : Vector Extended 1) = Vector.ofFn fun _ => value := by
    intro value
    apply vector_ext
    intro i
    rw [getElem_vectorOfFn, Subsingleton.elim i 0]
    rfl
  apply Model.problem_ext
  . funext x
    exact Formula.eval_var x 0
  . funext x
    exact congrArg Except.ok (hsingle slope)
  . cases row with
    | none => rfl
    | some row =>
      apply congrArg some
      funext x i
      rw [Subsingleton.elim i 0]
      cases row with
      | none => rfl
      | some entry => exact congrArg (fun row => Except.ok (some row)) (hsingle entry)

noncomputable def result (slope : Extended) (row : Option (Option Extended)) (tolerance : Extended) :
    Result Extended 1 1 :=
  { tolerance
    gradient := Vector.ofFn fun _ => { supplied := slope, difference := .finite 1 }
    hessian := row.map fun row => Vector.ofFn fun _ => row.map fun entry => Vector.ofFn fun _ =>
      { supplied := entry, difference := (slope - slope) / .finite (1 / 2) } }

theorem check_eq (slope : Extended) (row : Option (Option Extended)) (tolerance : Extended) :
    checkDerivatives (problem slope row) 0 (ofReals fun _ => 1) (some (.finite (1 / 2))) tolerance =
      .ok (result slope row tolerance) := by
  have hhalf : (1 / 2 : ℝ) ≠ 0 := by
    norm_num
  have hdifference : ∀ i : Fin 1, (Extended.finite (((fun _ => 1) + Pi.single i (1 / 2) : Fin 1 → ℝ) 0) -
      .finite 1) / .finite (1 / 2) = .finite 1 := by
    intro i
    rw [Subsingleton.elim i 0, Pi.add_apply, Pi.single_eq_same, finite_sub, add_sub_cancel_left,
      finite_div hhalf, div_self hhalf]
  rw [checkDerivatives_eq_ok_iff]
  refine ⟨rfl, ⟨_, _, rfl, forwardDifferences_ofReals hhalf (congrArg Except.ok (getElem_ofReals _ 0))
    fun _ => congrArg Except.ok (getElem_ofReals _ 0), ?_⟩, ?_, ?_⟩
  . apply vector_ext
    intro i
    rw [getElem_compare]
    unfold result
    simp only [getElem_vectorOfFn, hdifference]
  . intro hnone
    cases row with
    | none => rfl
    | some row => cases hnone
  . intro entries hentries
    cases row with
    | none => cases hentries
    | some row =>
      cases hentries
      refine ⟨_, rfl, ?_⟩
      intro i
      refine ⟨_, _, rfl, forwardDifferences_ofReals hhalf rfl fun _ => rfl, ?_⟩
      rw [getElem_vectorOfFn, Option.map_map]
      cases row with
      | none => rfl
      | some entry =>
        rw [Option.map_some, Option.map_some, Option.some.injEq]
        apply vector_ext
        intro j
        rw [Function.comp_apply, getElem_compare]
        simp only [getElem_vectorOfFn]

theorem check_model_eq (slope : Extended) (row : Option (Option Extended)) (tolerance : Extended)
    (printed : Bool) : Input.checkDerivatives (model slope row) 0 (ofReals fun _ => 1)
      (some (.finite (1 / 2))) tolerance printed = .ok ⟨1, result slope row tolerance⟩ := by
  rw [Input.checkDerivatives_eq (fits_model slope row), problem_model, check_eq]
  rfl

theorem result_ok_iff {slope : Extended} {row : Option (Option Extended)} {tolerance : Extended} :
    (result slope row tolerance).ok = true ↔
      Comparison.isBad tolerance { supplied := slope, difference := .finite 1 } = false ∧
        ∀ entry, row = some (some entry) → Comparison.isBad tolerance
          { supplied := entry, difference := (slope - slope) / .finite (1 / 2) } = false := by
  rw [Result.ok_iff]
  unfold result
  simp only [getElem_vectorOfFn, forall_const]
  apply and_congr_right'
  constructor
  . rintro h entry rfl
    have hentry := h _ rfl 0 _ (getElem_vectorOfFn _ _) 0
    rw [getElem_vectorOfFn] at hentry
    exact hentry
  . intro h rows hrows i compared hcompared j
    obtain ⟨row, rfl, rfl⟩ := Option.map_eq_some_iff.mp hrows
    rw [getElem_vectorOfFn] at hcompared
    obtain ⟨entry, rfl, rfl⟩ := Option.map_eq_some_iff.mp hcompared
    rw [getElem_vectorOfFn]
    exact h entry rfl

theorem passes_of_nan (difference tolerance : Extended) :
    Comparison.isBad tolerance { supplied := Extended.nan, difference } = false :=
  Comparison.passes_iff.mpr (Or.inr (Or.inl fun h => Bool.false_ne_true h.supplied))

theorem passes_one {t : ℝ} (ht : 0 ≤ t) :
    Comparison.isBad (.finite t) { supplied := Extended.finite 1, difference := .finite 1 } = false := by
  rw [Comparison.passes_iff, Comparison.error_finite, sub_self, abs_zero, zero_div]
  exact Or.inl ht

theorem isComplete_result (slope entry : ℝ) (tolerance : Extended) :
    (result (.finite slope) (some (some (.finite entry))) tolerance).IsComplete where
  gradient := by
    intro i
    unfold result
    rw [getElem_vectorOfFn]
    exact ⟨rfl, nofun⟩
  hessian := by
    rintro rows hrows i
    cases hrows
    refine ⟨_, getElem_vectorOfFn _ _, ?_⟩
    intro j
    rw [getElem_vectorOfFn, finite_sub, finite_div (by norm_num)]
    exact ⟨rfl, nofun⟩

theorem checkDerivatives_ok_iff_supplied :
    Input.checkDerivatives (model (.finite 1) (some (some (.finite 0)))) 0 (ofReals fun _ => 1)
        (some (.finite (1 / 2))) (.finite (1 / 10000)) false =
        .ok ⟨1, result (.finite 1) (some (some (.finite 0))) (.finite (1 / 10000))⟩ ∧
      (result (.finite 1) (some (some (.finite 0))) (.finite (1 / 10000))).IsComplete ∧
      (result (.finite 1) (some (some (.finite 0))) (.finite (1 / 10000))).ok = true ∧
      (result (.finite 1) (some (some (.finite 0))) (.finite (1 / 10000))).IsAccurate
        (.finite (1 / 10000)) := by
  have hcomplete := isComplete_result 1 0 (.finite (1 / 10000))
  have hok : (result (.finite 1) (some (some (.finite 0))) (.finite (1 / 10000))).ok = true := by
    rw [result_ok_iff]
    refine ⟨passes_one (by norm_num), ?_⟩
    rintro entry hentry
    cases hentry
    rw [finite_sub, sub_self, finite_div (by norm_num), zero_div, Comparison.passes_iff,
      Comparison.error_finite, sub_self, abs_zero, zero_div]
    left
    rw [finite_le]
    norm_num
  have hcheck := check_model_eq (.finite 1) (some (some (.finite 0))) (.finite (1 / 10000)) false
  exact ⟨hcheck, hcomplete, hok,
    ((Input.checkDerivatives_ok_iff hcheck).2.2 hcomplete nofun).mp hok⟩

theorem checkDerivatives_passes_undefined :
    (∃ r : Result Extended 1 1, Input.checkDerivatives (model .nan none) 0 (ofReals fun _ => 1)
        (some (.finite (1 / 2))) (.finite (1 / 10000)) false = .ok ⟨1, r⟩ ∧ r.ok = true ∧
      r.gradient[(0 : Fin 1)].supplied = .nan ∧
      ¬r.gradient[(0 : Fin 1)].error ≤ .finite (1 / 10000)) ∧
    (∃ (r : Result Extended 1 1) (rows : Vector (Option (Vector (Comparison Extended) 1)) 1)
        (row : Vector (Comparison Extended) 1),
      Input.checkDerivatives (model (.finite 1) (some (some .nan))) 0 (ofReals fun _ => 1)
        (some (.finite (1 / 2))) (.finite (1 / 10000)) false = .ok ⟨1, r⟩ ∧ r.ok = true ∧
      r.hessian = some rows ∧ rows[(0 : Fin 1)] = some row ∧ row[(0 : Fin 1)].supplied = .nan ∧
      ¬row[(0 : Fin 1)].error ≤ .finite (1 / 10000)) ∧
    ∃ (r : Result Extended 1 1) (rows : Vector (Option (Vector (Comparison Extended) 1)) 1),
      Input.checkDerivatives (model (.finite 1) (some none)) 0 (ofReals fun _ => 1)
        (some (.finite (1 / 2))) (.finite (1 / 10000)) false = .ok ⟨1, r⟩ ∧ r.ok = true ∧
      r.hessian = some rows ∧ rows[(0 : Fin 1)] = none := by
  have htolerance : (0 : ℝ) ≤ 1 / 10000 := by
    norm_num
  refine ⟨⟨_, check_model_eq _ _ _ _, ?_, ?_, ?_⟩,
    ⟨_, _, _, check_model_eq _ _ _ _, ?_, rfl, getElem_vectorOfFn _ _, ?_, ?_⟩,
    ⟨_, _, check_model_eq _ _ _ _, ?_, rfl, getElem_vectorOfFn _ _⟩⟩
  . exact result_ok_iff.mpr ⟨passes_of_nan _ _, nofun⟩
  . unfold result
    rw [getElem_vectorOfFn]
  . unfold result
    rw [getElem_vectorOfFn, Comparison.error_of_nan]
    exact not_nan_le
  . refine result_ok_iff.mpr ⟨passes_one htolerance, ?_⟩
    rintro entry hentry
    cases hentry
    exact passes_of_nan _ _
  . rw [getElem_vectorOfFn]
  . rw [getElem_vectorOfFn, Comparison.error_of_nan]
    exact not_nan_le
  . exact result_ok_iff.mpr ⟨passes_one htolerance, nofun⟩

end DerivativeCheck.Supplied

end BoxDescent

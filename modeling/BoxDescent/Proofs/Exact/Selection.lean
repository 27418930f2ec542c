import Mathlib.Tactic.FinCases
import BoxDescent.Proofs.Remaining

/-!
This module contains the decision about held variables in exact arithmetic. Between finite values it comes to
what the two estimates of every multiplier say: those that are negative and agree closely are found, in
reverse order, and the others stay on the list in theirs.
-/

namespace BoxDescent

namespace Release

open Extended

variable {n : Nat}

noncomputable def multiplierAt (b : Bounds Extended n) (x grad : Fin n → ℝ) (i : Fin n) : ℝ :=
  if b.reached i (.finite (x i)) .upper then -grad i else grad i

def changeAlong (fixed : Vector Bool n) (step : Fin n → ℝ) (row : Option (Fin n → ℝ)) : ℝ :=
  row.elim 0 fun h => ∑ j ∈ freeSet fixed, h j * step j

def IsReliablyNegative (first change : ℝ) : Prop :=
  first < 0 ∧ first + change < 0 ∧ 2 * |change| < min |first| |first + change|

noncomputable def estimateAt (a : ActiveSet Extended n) (x grad step : Fin n → ℝ)
    (row : Option (Fin n → ℝ)) (i : Fin n) : Estimate Extended where
  first := .finite (multiplierAt a.bounds x grad i)
  change := .finite (changeAlong a.fixed step row)
  secondOrder := row.isSome

theorem not_sameIndices_iff {found : List (Fin n)} {previous : Option (List (Fin n))} :
    ¬sameIndices (some found) previous = true ↔ ∀ old, previous = some old → ¬found.Perm old := by
  cases previous with
  | none => simp [sameIndices]
  | some old => simp [sameIndices, List.isPerm_iff]

section Estimate

variable {p : Problem Extended n} {a : ActiveSet Extended n} {x grad step : Fin n → ℝ} {i : Fin n}

theorem multiplier_eq (hi : ∃ side, a.bounds.reached i (.finite (x i)) side = true) :
    a.multiplier (ofReals x) (ofReals grad) i = .ok (.finite (multiplierAt a.bounds x grad i)) := by
  unfold ActiveSet.multiplier multiplierAt
  rw [getElem_ofReals, getElem_ofReals]
  split
  . rfl
  . next hupper =>
    obtain ⟨side, hside⟩ := hi
    cases side with
    | lower => rw [if_pos hside]
    | upper => exact absurd hside hupper

theorem estimate_eq {row : Option (Fin n → ℝ)}
    (hi : ∃ side, a.bounds.reached i (.finite (x i)) side = true)
    (hrow : (p.evalHessianRow (ofReals x) i).result = .ok (row.map ofReals)) :
    (estimate p a (ofReals x) (ofReals grad) (ofReals step) i).result =
      .ok (estimateAt a x grad step row i) := by
  unfold estimate
  rw [Logged.result_bind_of_ok hrow, multiplier_eq hi]
  cases row with
  | none => rfl
  | some h =>
    dsimp only [Option.map_some]
    unfold ActiveSet.free
    rw [dotOver_ofReals, sum_unmasked]
    rfl

end Estimate

open Classical in
/-- The outcome of a decision about held variables that are all on their bounds. -/
theorem select_exact {p : Problem Extended n} {a : ActiveSet Extended n} {x grad step : Fin n → ℝ}
    {row : Fin n → Option (Fin n → ℝ)}
    (hbounds : ∀ i ∈ a.indices, ∃ side, a.bounds.reached i (.finite (x i)) side = true)
    (hrow : ∀ i ∈ a.indices, (p.evalHessianRow (ofReals x) i).result = .ok ((row i).map ofReals))
    (previous : Option (List (Fin n))) :
    let isFound := fun i =>
      IsReliablyNegative (multiplierAt a.bounds x grad i) (changeAlong a.fixed step (row i))
    let toFree := (a.indices.filter fun i => isFound i).reverse
    ∃ released, (select p a (ofReals x) (ofReals grad) (ofReals step) previous).result =
        .ok { indices := a.indices.filter fun i => ¬isFound i, verdict := .ok (toFree, released) } ∧
      ((∀ i ∈ a.indices, row i = none) →
        (released = true ↔ toFree ≠ [] ∧ ∀ old, previous = some old → ¬toFree.Perm old)) ∧
      ((∀ i ∈ a.indices, row i ≠ none) → (released = true ↔ toFree ≠ [])) := by
  intro isFound toFree
  have hestimate : ∀ i ∈ a.indices, (estimate p a (ofReals x) (ofReals grad) (ofReals step) i).result =
      .ok (estimateAt a x grad step (row i) i) :=
    fun i hi => estimate_eq (hbounds i hi) (hrow i hi)
  obtain ⟨released, hselect, hnone, hsome⟩ := decision_of_estimates hestimate previous
  have hfound : ∀ i, (estimateAt a x grad step (row i) i).isReleased = decide (isFound i) := by
    intro i
    rw [Bool.eq_iff_iff, decide_eq_true_eq]
    exact isReleased_finite rfl rfl
  simp only [hfound, ← decide_not] at hselect hnone hsome
  refine ⟨released, hselect, ?_, ?_⟩
  . intro hrows
    rw [← not_sameIndices_iff]
    apply hnone
    intro i hi
    rw [hrows i hi]
    rfl
  . intro hrows
    apply hsome
    intro i hi
    exact Option.isSome_iff_ne_none.mpr (hrows i hi)

namespace Pair

noncomputable def problem : Problem Extended 3 where
  objective _ := .ok 0
  gradient _ := .ok (ofReals fun _ => 0)
  hessianRow := some fun _ _ => .ok (some (ofReals fun _ => 1))

noncomputable def bounds : Bounds Extended 3 where
  lower := #v[some 0, none, some 0]
  upper := #v[none, none, none]

noncomputable def held : ActiveSet Extended 3 :=
  ((ActiveSet.ofBounds bounds).fix 0 .lower).fix 2 .lower

noncomputable def grad : Fin 3 → ℝ := ![-1, 0, -1 / 4]

noncomputable def step : Fin 3 → ℝ := ![0, 1 / 4, 0]

theorem multiplierAt_eq (i : Fin 3) : multiplierAt held.bounds (fun _ => 0) grad i = grad i := by
  have hupper : held.bounds.bound i .upper = none := by
    fin_cases i <;> rfl
  unfold multiplierAt
  rw [if_neg]
  simp [Bounds.reached, hupper]

theorem changeAlong_eq : changeAlong held.fixed step (some fun _ => 1) = 1 / 4 := by
  have hfree : freeSet held.fixed = {1} := by
    decide
  unfold changeAlong
  rw [hfree, Option.elim_some, Finset.sum_singleton]
  norm_num [step]

theorem select_first : (select problem held (ofReals fun _ => 0) (ofReals grad) (ofReals step) none).result =
    .ok { indices := [2], verdict := .ok ([0], true) } := by
  have hbounds : ∀ i ∈ held.indices, ∃ side, held.bounds.reached i (.finite 0) side = true := by
    intro i hi
    have hlower : held.bounds.bound i .lower = some 0 := by
      have hmem : i ∈ [0, 2] := hi
      fin_cases hmem <;> rfl
    exact ⟨.lower, Bounds.reached_of_eq hlower (le_refl (0 : ℝ))⟩
  have hrow : ∀ i ∈ held.indices, (problem.evalHessianRow (ofReals fun _ => 0) i).result =
      .ok ((some fun _ => 1 : Option (Fin 3 → ℝ)).map ofReals) := fun _ _ => rfl
  obtain ⟨released, hselect, _, hsome⟩ := @select_exact _ _ _ _ grad step _ hbounds hrow none
  have hfirst : IsReliablyNegative (multiplierAt held.bounds (fun _ => 0) grad 0)
      (changeAlong held.fixed step (some fun _ => 1)) := by
    have hgrad : grad 0 = -1 := rfl
    rw [multiplierAt_eq, changeAlong_eq, hgrad]
    norm_num [IsReliablyNegative]
  have hlast : ¬IsReliablyNegative (multiplierAt held.bounds (fun _ => 0) grad 2)
      (changeAlong held.fixed step (some fun _ => 1)) := by
    have hgrad : grad 2 = -1 / 4 := rfl
    rw [multiplierAt_eq, changeAlong_eq, hgrad]
    norm_num [IsReliablyNegative]
  have hindices : held.indices = [0, 2] := rfl
  rw [hindices] at hselect hsome
  simp [hfirst, hlast] at hselect hsome
  rw [hselect, hsome]

end Pair

end Release

end BoxDescent

import Mathlib.Order.Interval.Finset.Fin
import BoxDescent.Proofs.Triangle
import BoxDescent.Proofs.Exact.Vector

/-!
This module contains substitution in exact arithmetic: as long as no diagonal entry in the way is zero, the
unknowns are finite and solve the system over the reals (`solve_ofReals`). They are the only ones that do,
and nothing outside of the system has any influence on them (`solve_unique`).
-/

namespace BoxDescent

open Extended

variable {n : Nat}

namespace Triangle

def IsTriangular (t : Triangle) (m : Fin n → Fin n → ℝ) : Prop :=
  ∀ i j, j ≠ i → j ∉ t.beside i → m i j = 0

theorem nodup_beside (t : Triangle) (j : Fin n) : (t.beside j).Nodup := by
  cases t with
  | lower => exact (List.nodup_finRange n).filter _
  | upper => exact (List.nodup_finRange n).filter _

variable {t : Triangle} {m : Fin n → Fin n → ℝ} {b : Fin n → ℝ} {skip : Vector Bool n}

theorem beside_induction {P : Fin n → Prop} (t : Triangle)
    (step : ∀ j, (∀ i ∈ t.beside j, P i) → P j) (j : Fin n) : P j := by
  cases t with
  | lower =>
    induction j using WellFoundedLT.induction with
    | ind j ih =>
      apply step
      intro i hi
      rw [mem_beside] at hi
      exact ih i hi
  | upper =>
    induction j using WellFoundedGT.induction with
    | ind j ih =>
      apply step
      intro i hi
      rw [mem_beside] at hi
      exact ih i hi

theorem unknown_ofReals {x : Vector Extended n} {w : Fin n → ℝ} {j : Fin n}
    (h : ∀ i ∈ t.beside j, x[i] = .finite (w i)) :
    t.unknown (Square.ofReals m) (ofReals b) x j =
      Extended.finite (b j - ((t.beside j).map fun i => m j i * w i).sum) / .finite (m j j) := by
  have hdot : dotOver (t.beside j) (ofReals (m j)) x =
      dotOver (t.beside j) (ofReals (m j)) (ofReals w) := by
    apply dotOver_congr
    intro i hi
    rw [h i hi, getElem_ofReals]
  unfold unknown
  rw [getElem_squareOfReals, hdot, dotOver_ofReals, getElem_ofReals, getElem_ofReals, finite_sub]

theorem exists_getElem_solve (skip : Vector Bool n) (P : Fin n → Prop)
    (hbeside : ∀ j, P j → ∀ i ∈ t.beside j, P i) (hdiag : ∀ j, P j → skip[j] = false → m j j ≠ 0)
    (j : Fin n) (hj : P j) :
    ∃ r, (t.solve (Square.ofReals m) (ofReals b) skip)[j] = .finite r := by
  induction j using beside_induction t with
  | step j ih =>
    rw [getElem_solve]
    split
    . exact ⟨0, rfl⟩
    . next hskip =>
      have hbefore : ∀ i, ∃ r, i ∈ t.beside j →
          (t.solve (Square.ofReals m) (ofReals b) skip)[i] = .finite r := by
        intro i
        by_cases hi : i ∈ t.beside j
        . obtain ⟨r, hr⟩ := ih i hi (hbeside j hj i hi)
          exact ⟨r, fun _ => hr⟩
        . exact ⟨0, fun h => absurd h hi⟩
      choose w hw using hbefore
      rw [unknown_ofReals hw, finite_div (hdiag j hj (Bool.eq_false_iff.mpr hskip))]
      exact ⟨_, rfl⟩

def columns (t : Triangle) (j : Fin n) : Finset (Fin n) :=
  match t with
  | lower => Finset.Iic j
  | upper => Finset.Ici j

theorem columns_eq (t : Triangle) (j : Fin n) : t.columns j = insert j (t.beside j).toFinset := by
  ext i
  rw [Finset.mem_insert, List.mem_toFinset, mem_beside]
  cases t with
  | lower => exact Finset.mem_Iic.trans le_iff_eq_or_lt
  | upper => exact Finset.mem_Ici.trans (le_iff_eq_or_lt.trans (or_congr_left eq_comm))

theorem sum_columns (x : Fin n → ℝ) (j : Fin n) :
    ∑ k ∈ t.columns j, m j k * x k = m j j * x j + ((t.beside j).map fun k => m j k * x k).sum := by
  have hj : j ∉ (t.beside j).toFinset := by
    rw [List.mem_toFinset]
    exact not_mem_beside j
  rw [columns_eq, Finset.sum_insert hj, List.sum_toFinset _ (t.nodup_beside j)]

theorem sum_row (hm : t.IsTriangular m) (x : Fin n → ℝ) (j : Fin n) :
    ∑ k, m j k * x k = ∑ k ∈ t.columns j, m j k * x k := by
  symm
  apply Finset.sum_subset (Finset.subset_univ _)
  intro k _ hk
  rw [columns_eq, Finset.mem_insert, List.mem_toFinset, not_or] at hk
  rw [hm j k hk.1 hk.2, zero_mul]

structure Solves (t : Triangle) (m : Fin n → Fin n → ℝ) (b : Fin n → ℝ) (skip : Vector Bool n)
    (x : Fin n → ℝ) : Prop where
  skipped : ∀ j : Fin n, skip[j] = true → x j = 0
  row : ∀ j : Fin n, skip[j] = false → ∑ k ∈ t.columns j, m j k * x k = b j

theorem solve_solves (skip : Vector Bool n) (hdiag : ∀ j : Fin n, skip[j] = false → m j j ≠ 0)
    (b : Fin n → ℝ) :
    ∃ x, t.solve (Square.ofReals m) (ofReals b) skip = ofReals x ∧ t.Solves m b skip x := by
  obtain ⟨x, hx⟩ := exists_ofReals fun j => exists_getElem_solve (t := t) (m := m) (b := b) skip
    (fun _ => True) (fun _ _ _ _ => trivial) (fun j _ => hdiag j) j trivial
  refine ⟨x, hx, ?_, ?_⟩
  . intro j hj
    have hxj := getElem_solve (t := t) (Square.ofReals m) (ofReals b) skip j
    rw [if_pos hj, hx, getElem_ofReals, zero_eq, finite_inj] at hxj
    exact hxj
  . intro j hj
    have hxj := getElem_solve (t := t) (Square.ofReals m) (ofReals b) skip j
    rw [if_neg (Bool.eq_false_iff.mp hj), hx, unknown_ofReals fun i _ => getElem_ofReals x i,
      finite_div (hdiag j hj), getElem_ofReals, finite_inj, eq_div_iff (hdiag j hj)] at hxj
    rw [sum_columns, mul_comm, hxj]
    ring

theorem solve_ofReals (skip : Vector Bool n) (hm : t.IsTriangular m)
    (hdiag : ∀ j, skip[j] = false → m j j ≠ 0) (b : Fin n → ℝ) :
    ∃ x, t.solve (Square.ofReals m) (ofReals b) skip = ofReals x ∧
      (∀ j, skip[j] = true → x j = 0) ∧ ∀ j, skip[j] = false → ∑ i, m j i * x i = b j := by
  obtain ⟨x, hx, hsolves⟩ := solve_solves skip hdiag b
  refine ⟨x, hx, hsolves.skipped, ?_⟩
  intro j hj
  rw [sum_row hm]
  exact hsolves.row j hj

theorem Solves.unique (hdiag : ∀ j : Fin n, skip[j] = false → m j j ≠ 0) {x y : Fin n → ℝ}
    (hx : t.Solves m b skip x) (hy : t.Solves m b skip y) : y = x := by
  funext j
  -- Each row determines one more unknown, once those beside it are known to agree.
  induction j using beside_induction t with
  | step j ih =>
    cases hj : skip[j] with
    | true => rw [hx.skipped j hj, hy.skipped j hj]
    | false =>
      have hrow := (hy.row j hj).trans (hx.row j hj).symm
      have hbeside : (t.beside j).map (fun k => m j k * y k) =
          (t.beside j).map fun k => m j k * x k := by
        apply List.map_congr_left
        intro k hk
        rw [ih k hk]
      rw [sum_columns, sum_columns, hbeside, add_left_inj] at hrow
      exact mul_left_cancel₀ (hdiag j hj) hrow

structure Agrees (t : Triangle) (skip : Vector Bool n) (m m' : Fin n → Fin n → ℝ) (b b' : Fin n → ℝ) :
    Prop where
  entry : ∀ j k : Fin n, skip[j] = false → skip[k] = false → k ∈ t.columns j → m j k = m' j k
  rhs : ∀ j : Fin n, skip[j] = false → b j = b' j

theorem solve_congr {m' : Fin n → Fin n → ℝ} {b' : Fin n → ℝ} (h : t.Agrees skip m m' b b') :
    t.solve (Square.ofReals m) (ofReals b) skip = t.solve (Square.ofReals m') (ofReals b') skip := by
  apply vector_ext
  intro j
  induction j using beside_induction t with
  | step j ih =>
    rw [getElem_solve, getElem_solve]
    split
    . rfl
    . next hj =>
      rw [Bool.not_eq_true] at hj
      have hdot : dotOver (t.beside j) (ofReals (m j)) (t.solve (Square.ofReals m) (ofReals b) skip) =
          dotOver (t.beside j) (ofReals (m' j)) (t.solve (Square.ofReals m') (ofReals b') skip) := by
        apply dotOver_congr_mul
        intro k hk
        rw [getElem_ofReals, getElem_ofReals]
        cases hskip : skip[k] with
        | true =>
          -- A column left out is multiplied by the zero that stands for its unknown.
          rw [getElem_solve, getElem_solve, if_pos hskip, if_pos hskip, zero_eq, finite_mul, finite_mul,
            mul_zero, mul_zero]
        | false =>
          have hmem : k ∈ t.columns j := by
            rw [columns_eq, Finset.mem_insert, List.mem_toFinset]
            exact Or.inr hk
          rw [ih k hk, h.entry j k hj hskip hmem]
      have hdiag : m j j = m' j j := by
        apply h.entry j j hj hj
        rw [columns_eq]
        exact Finset.mem_insert_self _ _
      unfold unknown
      rw [getElem_squareOfReals, getElem_squareOfReals, hdot, getElem_ofReals, getElem_ofReals,
        getElem_ofReals, getElem_ofReals, h.rhs j hj, hdiag]

/-- The unknowns that substitution finds are the only ones that solve the system, and they depend on nothing
but the system. -/
theorem solve_unique (skip : Vector Bool n) (hdiag : ∀ j : Fin n, skip[j] = false → m j j ≠ 0)
    (b : Fin n → ℝ) :
    (∃ x, t.solve (Square.ofReals m) (ofReals b) skip = ofReals x ∧
      ∀ y, t.Solves m b skip y ↔ y = x) ∧
    ∀ m' b', t.Agrees skip m m' b b' → t.solve (Square.ofReals m') (ofReals b') skip =
      t.solve (Square.ofReals m) (ofReals b) skip := by
  obtain ⟨x, hx, hsolves⟩ := solve_solves (t := t) skip hdiag b
  refine ⟨⟨x, hx, fun y => ⟨hsolves.unique hdiag, ?_⟩⟩, fun _ _ h => (solve_congr h).symm⟩
  rintro rfl
  exact hsolves

theorem solve_unique_gap :
    (∀ j : Fin 3, #v[false, true, false][j] = false → (if j = 1 then (0 : ℝ) else 2) ≠ 0) ∧
    (∃ x, upper.solve (Square.ofReals fun j _ : Fin 3 => if j = 1 then 0 else 2) (ofReals fun _ => 1)
        #v[false, true, false] = ofReals x ∧
      ∀ y, upper.Solves (fun j _ => if j = 1 then 0 else 2) (fun _ => 1) #v[false, true, false] y ↔ y = x) ∧
    ∀ m' b', upper.Agrees #v[false, true, false] (fun j _ => if j = 1 then 0 else 2) m' (fun _ => 1) b' →
      upper.solve (Square.ofReals m') (ofReals b') #v[false, true, false] =
        upper.solve (Square.ofReals fun j _ : Fin 3 => if j = 1 then 0 else 2) (ofReals fun _ => 1)
          #v[false, true, false] := by
  have hdiag : ∀ j : Fin 3, #v[false, true, false][j] = false → (if j = 1 then (0 : ℝ) else 2) ≠ 0 := by
    intro j hj
    have hne : j ≠ 1 := by
      rintro rfl
      cases hj
    rw [if_neg hne]
    exact two_ne_zero
  exact ⟨hdiag, solve_unique #v[false, true, false] hdiag fun _ => 1⟩

end Triangle

end BoxDescent

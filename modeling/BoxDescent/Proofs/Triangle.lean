import Mathlib.Data.List.Nodup
import BoxDescent.Triangle
import BoxDescent.Proofs.Vector

/-!
This module contains the equations that substitution solves, whatever the arithmetic: every unknown is what
its row says it is, given the final values of the unknowns beside it (`getElem_solve`).
-/

namespace BoxDescent

variable {n : Nat}

theorem foldl_set_eq {β : Type} (F : Fin n → Vector β n → β) {beside : Fin n → List (Fin n)}
    (hF : ∀ j x y, (∀ i ∈ beside j, x[i] = y[i]) → F j x = F j y) (hself : ∀ j, j ∉ beside j)
    (todo : List (Fin n)) :
    ∀ x : Vector β n, todo.Nodup → todo.Pairwise (fun j k => k ∉ beside j) →
      (∀ j ∈ todo, (todo.foldl (fun x (j : Fin n) => x.set j (F j x) j.isLt) x)[j] =
        F j (todo.foldl (fun x (j : Fin n) => x.set j (F j x) j.isLt) x)) ∧
      ∀ j, j ∉ todo → (todo.foldl (fun x (j : Fin n) => x.set j (F j x) j.isLt) x)[j] = x[j] := by
  induction todo with
  | nil =>
    intro x _ _
    exact ⟨nofun, fun _ _ => rfl⟩
  | cons i todo ih =>
    intro x hnodup hlater
    rw [List.nodup_cons] at hnodup
    rw [List.pairwise_cons] at hlater
    obtain ⟨hin, hout⟩ := ih (x.set i (F i x) i.isLt) hnodup.2 hlater.2
    rw [List.foldl_cons]
    constructor
    . intro j hj
      cases List.mem_cons.mp hj with
      | inr hmem => exact hin j hmem
      | inl hji =>
        subst hji
        rw [hout j hnodup.1, getElem_set, if_pos rfl]
        apply hF
        intro k hk
        have hne : j ≠ k := by
          intro hjk
          rw [← hjk] at hk
          exact hself j hk
        have hk' : k ∉ todo := fun hmem => hlater.1 k hmem hk
        rw [hout k hk', getElem_set, if_neg hne]
    . intro j hj
      rw [List.mem_cons, not_or] at hj
      rw [hout j hj.2, getElem_set, if_neg (Ne.symm hj.1)]

namespace Triangle

variable {α : Type} [Scalar α] {t : Triangle}

theorem mem_order (j : Fin n) : j ∈ t.order n := by
  cases t <;> simp [order]

theorem mem_beside {i j : Fin n} :
    i ∈ t.beside j ↔ match t with
      | .lower => i < j
      | .upper => j < i := by
  cases t <;> simp [beside]

theorem not_mem_beside (j : Fin n) : j ∉ t.beside j := by
  cases t <;> simp [mem_beside]

theorem nodup_order : (t.order n).Nodup := by
  cases t with
  | lower => exact List.nodup_finRange n
  | upper =>
    unfold order
    rw [List.nodup_reverse]
    exact List.nodup_finRange n

theorem pairwise_order : (t.order n).Pairwise fun j k => k ∉ t.beside j := by
  cases t with
  | lower =>
    apply (List.pairwise_lt_finRange n).imp
    intro j k hjk
    rw [mem_beside]
    exact Fin.lt_asymm hjk
  | upper =>
    unfold order
    rw [List.pairwise_reverse]
    apply (List.pairwise_lt_finRange n).imp
    intro k j hkj
    rw [mem_beside]
    exact Fin.lt_asymm hkj

theorem unknown_congr {m : Square α n} {b x y : Vector α n} {j : Fin n}
    (h : ∀ i ∈ t.beside j, x[i] = y[i]) : t.unknown m b x j = t.unknown m b y j := by
  unfold unknown
  rw [dotOver_congr h]

theorem getElem_solve (m : Square α n) (b : Vector α n) (skip : Vector Bool n) (j : Fin n) :
    (t.solve m b skip)[j] = if skip[j] then 0 else t.unknown m b (t.solve m b skip) j := by
  have hcongr : ∀ (j : Fin n) (x y : Vector α n), (∀ i ∈ t.beside j, x[i] = y[i]) →
      t.unknown m b x j = t.unknown m b y j := fun _ _ _ => unknown_congr
  have h := foldl_set_eq (fun j x => t.unknown m b x j) hcongr not_mem_beside
    ((t.order n).filter fun j => !skip[j]) (Vector.replicate n 0) (nodup_order.filter _)
    (pairwise_order.filter _)
  have hmem : j ∈ (t.order n).filter (fun j => !skip[j]) ↔ skip[j] = false := by
    rw [List.mem_filter, and_iff_right (mem_order j), Bool.not_eq_true']
  split
  . next hskip =>
    have hj := h.2 j (by rw [hmem, hskip]; exact Bool.noConfusion)
    rw [getElem_replicate] at hj
    exact hj
  . next hskip => exact h.1 j (hmem.mpr (Bool.eq_false_iff.mpr hskip))

end Triangle

end BoxDescent

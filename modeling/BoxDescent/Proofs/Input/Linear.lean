import Mathlib.Data.Finset.Dedup
import BoxDescent.Input.Linear
import BoxDescent.Proofs.Input.Held

/-!
This module contains factors as callers hand them in, in the case that their shapes fit. A reset at positions
that are in range is then the reset of the variables that the positions mean (`Factors.reset_ofFactor`).
-/

namespace BoxDescent

variable {α β : Type} {n : Nat}

theorem exists_place? {position : Int} (h : -(n : Int) ≤ position ∧ position < n) :
    ∃ i, place? n position = some i := by
  unfold place?
  dsimp only
  split
  . exact ⟨_, dif_pos (by omega)⟩
  . exact ⟨_, dif_pos (by omega)⟩

theorem mapM_place? {positions : List Int} (h : ∀ p ∈ positions, -(n : Int) ≤ p ∧ p < n) :
    positions.mapM (place? n) = some (positions.filterMap (place? n)) := by
  induction positions with
  | nil => rfl
  | cons p positions ih =>
    rw [List.forall_mem_cons] at h
    obtain ⟨i, hi⟩ := exists_place? h.1
    rw [List.mapM_cons, hi, ih h.2, List.filterMap_cons_some hi]
    rfl

namespace Grid

theorem offset_lt (i j : Fin n) : i.val * n + j.val < n * n := by
  have hrows := Nat.mul_le_mul_right n i.isLt
  rw [Nat.succ_mul] at hrows
  omega

theorem get?_ofSquare (m : Square β n) (i j : Fin n) :
    (ofSquare m).get? [i.val, j.val] = some m[i][j] := by
  have hoffset : offset [n, n] [i.val, j.val] = i.val * n + j.val := by
    simp [offset, count]
  have hentries : (ofSquare m).entries = m.flatten.toArray := Array.flatMap_def
  have hdiv : (i.val * n + j.val) / n = i := by
    rw [Nat.mul_comm, Nat.mul_add_div (Nat.zero_lt_of_lt j.isLt), Nat.div_eq_of_lt j.isLt, Nat.add_zero]
  have hmod : (i.val * n + j.val) % n = j := by
    rw [Nat.mul_comm, Nat.mul_add_mod_self_left, Nat.mod_eq_of_lt j.isLt]
  show (ofSquare m).entries[offset [n, n] [i.val, j.val]]? = _
  rw [hoffset, hentries, Vector.getElem?_toArray, Vector.getElem?_eq_getElem (offset_lt i j),
    Vector.getElem_flatten]
  simp only [hdiv, hmod]
  rfl

theorem square?_ofSquare (m : Square β n) : (ofSquare m).square? n = some m := by
  have hrow : ∀ i : Fin n, (Vector.ofFnM fun j : Fin n => some m[i][j]) = some m[i] := by
    intro i
    exact Vector.ofFnM_pure.trans (congrArg some Vector.ofFn_getElem)
  show (if [n, n] = [n, n] then _ else _) = _
  rw [if_pos rfl]
  simp only [get?_ofSquare, hrow]
  exact Vector.ofFnM_pure.trans (congrArg some Vector.ofFn_getElem)

end Grid

namespace Input

/-- The variables that positions mean. Several positions may mean the same one. -/
def meant (n : Nat) (positions : List Int) : Finset (Fin n) :=
  (positions.filterMap (place? n)).toFinset

namespace Factors

theorem factor?_ofFactor (f : Factor α n) : (ofFactor f).factor? n = some f := by
  unfold factor? ofFactor
  dsimp only
  rw [Grid.square?_ofSquare, Grid.vector?_ofArray]
  rfl

theorem reset_ofFactor [Scalar α] (f : Factor α n) {positions : List Int}
    (h : ∀ p ∈ positions, -(n : Int) ≤ p ∧ p < n) (v : α) : (ofFactor f).reset positions v =
      (ofFactor (f.resetAll (positions.filterMap (place? n)) v), .ok ()) := by
  have hsize : (ofFactor f).diag.entries.size = n := f.diag.size_toArray
  unfold reset
  dsimp only
  rw [hsize, factor?_ofFactor, mapM_place? h]

end Factors

end Input

end BoxDescent

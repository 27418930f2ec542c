import Mathlib.Data.List.Basic
import BoxDescent.Vector

/-!
This module contains how the entries of a vector are read after it was written to. A sum over some of the
positions only depends on the entries there.
-/

namespace BoxDescent

variable {β γ : Type} {n : Nat}

@[simp]
theorem getElem_vectorMap (f : β → γ) (v : Vector β n) (i : Fin n) : (v.map f)[i] = f v[i] :=
  Vector.getElem_map f i.isLt

theorem vector_ext {v w : Vector β n} (h : ∀ i : Fin n, v[i] = w[i]) : v = w := by
  apply Vector.ext
  intro i hi
  exact h ⟨i, hi⟩

theorem square_ext {v w : Square β n} (h : ∀ i j : Fin n, v[i][j] = w[i][j]) : v = w := by
  apply vector_ext
  intro i
  exact vector_ext (h i)

theorem pairwise_unmasked (mask : Vector Bool n) : (unmasked mask).Pairwise (· < ·) :=
  (List.pairwise_lt_finRange n).filter _

section Congr

variable {α : Type} [Scalar α]

theorem sumOver_congr {is : List (Fin n)} {f g : Fin n → α} (h : ∀ i ∈ is, f i = g i) :
    sumOver is f = sumOver is g := by
  unfold sumOver
  apply List.foldl_ext
  intro s i hi
  rw [h i hi]

theorem dotOver_congr_mul {is : List (Fin n)} {u v u' v' : Vector α n}
    (h : ∀ i ∈ is, u[i] * v[i] = u'[i] * v'[i]) : dotOver is u v = dotOver is u' v' := by
  unfold dotOver
  split
  . next i => exact h i (List.mem_singleton_self i)
  . exact sumOver_congr h

theorem dotOver_congr {is : List (Fin n)} {u v w : Vector α n} (h : ∀ i ∈ is, v[i] = w[i]) :
    dotOver is u v = dotOver is u w := by
  apply dotOver_congr_mul
  intro i hi
  rw [h i hi]

theorem dotOver_congr_left {is : List (Fin n)} {u v w : Vector α n} (h : ∀ i ∈ is, u[i] = v[i]) :
    dotOver is u w = dotOver is v w := by
  apply dotOver_congr_mul
  intro i hi
  rw [h i hi]

end Congr

end BoxDescent

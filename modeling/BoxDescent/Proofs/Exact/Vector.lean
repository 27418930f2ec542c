import Mathlib.Algebra.BigOperators.Fin
import Mathlib.Algebra.Order.BigOperators.Group.Finset
import BoxDescent.Vector
import BoxDescent.Proofs.Scalar.Extended
import BoxDescent.Proofs.Vector

/-!
This module contains vectors and matrices of finite values: the sums over them are the sums over the reals.
-/

namespace BoxDescent

open Extended

variable {n : Nat}

def ofReals (v : Fin n → ℝ) : Vector Extended n :=
  Vector.ofFn fun i => .finite (v i)

def Square.ofReals (m : Fin n → Fin n → ℝ) : Square Extended n :=
  Square.ofFn fun i j => .finite (m i j)

theorem getElem_ofReals (v : Fin n → ℝ) (i : Fin n) : (ofReals v)[i] = .finite (v i) := by
  unfold ofReals
  rw [getElem_vectorOfFn]

theorem getElem_squareOfReals (m : Fin n → Fin n → ℝ) (i : Fin n) :
    (Square.ofReals m)[i] = ofReals (m i) := by
  unfold Square.ofReals Square.ofFn ofReals
  rw [getElem_vectorOfFn]

theorem ofReals_inj {v w : Fin n → ℝ} : ofReals v = ofReals w ↔ v = w := by
  constructor
  . intro h
    funext i
    have hi : (ofReals v)[i] = (ofReals w)[i] := by
      rw [h]
    rw [getElem_ofReals, getElem_ofReals, finite_inj] at hi
    exact hi
  . intro h
    rw [h]

theorem eq_ofReals_iff {v : Vector Extended n} {w : Fin n → ℝ} :
    v = ofReals w ↔ ∀ i : Fin n, v[i] = .finite (w i) := by
  constructor
  . intro h i
    rw [h, getElem_ofReals]
  . intro h
    apply vector_ext
    intro i
    rw [h, getElem_ofReals]

theorem exists_ofReals {v : Vector Extended n} (h : ∀ i : Fin n, ∃ r, v[i] = .finite r) :
    ∃ w, v = ofReals w := by
  choose w hw using h
  exact ⟨w, eq_ofReals_iff.mpr hw⟩

theorem exists_ofReals_iff {v : Vector Extended n} :
    (∃ w, v = ofReals w) ↔ ∀ i : Fin n, Scalar.isFinite v[i] = true := by
  constructor
  . intro h i
    obtain ⟨w, rfl⟩ := h
    rw [getElem_ofReals]
    rfl
  . intro h
    apply exists_ofReals
    intro i
    exact isFinite_iff.mp (h i)

theorem ofReals_set (v : Fin n → ℝ) (i : Fin n) (r : ℝ) :
    (ofReals v).set i (.finite r) i.isLt = ofReals (Function.update v i r) := by
  rw [eq_ofReals_iff]
  intro j
  rw [getElem_set]
  split
  . next hij =>
    subst hij
    rw [Function.update_self]
  . next hij =>
    rw [Function.update_of_ne (Ne.symm hij), getElem_ofReals]

def freeSet (fixed : Vector Bool n) : Finset (Fin n) :=
  Finset.univ.filter fun i => fixed[i] = false

theorem mem_freeSet {fixed : Vector Bool n} {i : Fin n} : i ∈ freeSet fixed ↔ fixed[i] = false := by
  unfold freeSet
  rw [Finset.mem_filter]
  exact ⟨fun h => h.2, fun h => ⟨Finset.mem_univ i, h⟩⟩

theorem nodup_unmasked (fixed : Vector Bool n) : (unmasked fixed).Nodup :=
  (List.nodup_finRange n).filter _

theorem toFinset_unmasked (fixed : Vector Bool n) : (unmasked fixed).toFinset = freeSet fixed := by
  ext i
  rw [List.mem_toFinset, mem_unmasked, mem_freeSet]

theorem sum_unmasked (fixed : Vector Bool n) (f : Fin n → ℝ) :
    ((unmasked fixed).map f).sum = ∑ i ∈ freeSet fixed, f i := by
  rw [← toFinset_unmasked, List.sum_toFinset f (nodup_unmasked fixed)]

theorem sum_finRange (f : Fin n → ℝ) : ((List.finRange n).map f).sum = ∑ i, f i := by
  rw [← List.sum_toFinset f (List.nodup_finRange n), List.toFinset_finRange]

theorem foldl_add_finite (f : Fin n → ℝ) (is : List (Fin n)) :
    ∀ s : ℝ, is.foldl (fun s i => s + .finite (f i)) (Extended.finite s) =
      .finite (s + (is.map f).sum) := by
  induction is with
  | nil =>
    intro s
    simp
  | cons i is ih =>
    intro s
    rw [List.foldl_cons, finite_add, ih, List.map_cons, List.sum_cons, add_assoc]

theorem sumOver_finite (is : List (Fin n)) (f : Fin n → ℝ) :
    sumOver is (fun i => Extended.finite (f i)) = .finite (is.map f).sum := by
  unfold sumOver
  rw [zero_eq, foldl_add_finite, zero_add]

theorem dotOver_ofReals (is : List (Fin n)) (u v : Fin n → ℝ) :
    dotOver is (ofReals u) (ofReals v) = .finite (is.map fun i => u i * v i).sum := by
  unfold dotOver
  split
  . next i =>
    rw [getElem_ofReals, getElem_ofReals, finite_mul, List.map_singleton, List.sum_singleton]
  . simp only [getElem_ofReals, finite_mul]
    exact sumOver_finite is fun i => u i * v i

theorem normOver_ofReals (is : List (Fin n)) (v : Fin n → ℝ) :
    normOver is (ofReals v) = .finite (Real.sqrt (is.map fun i => v i * v i).sum) := by
  unfold normOver
  rw [dotOver_ofReals, sqrt_finite]
  apply List.sum_nonneg
  intro r hr
  obtain ⟨i, _, rfl⟩ := List.mem_map.mp hr
  exact mul_self_nonneg (v i)

/-- The entries that a mask does not fix are finite. -/
def FiniteOn (fixed : Vector Bool n) (v : Vector Extended n) : Prop :=
  ∀ i : Fin n, fixed[i] = false → ∃ r, v[i] = .finite r

theorem finiteOn_ofReals (fixed : Vector Bool n) (v : Fin n → ℝ) : FiniteOn fixed (ofReals v) :=
  fun i _ => ⟨v i, getElem_ofReals v i⟩

theorem FiniteOn.dotOver_finite {fixed : Vector Bool n} {v : Vector Extended n} (h : FiniteOn fixed v)
    (w : Fin n → ℝ) : ∃ s, dotOver (unmasked fixed) v (ofReals w) = .finite s := by
  have hrest : ∃ u, (Vector.ofFn fun i : Fin n => if fixed[i] then (0 : Extended) else v[i]) =
      ofReals u := by
    apply exists_ofReals
    intro i
    rw [getElem_vectorOfFn]
    split
    . exact ⟨0, rfl⟩
    . next hi => exact h i (Bool.eq_false_iff.mpr hi)
  obtain ⟨u, hu⟩ := hrest
  have hcongr : dotOver (unmasked fixed) v (ofReals w) =
      dotOver (unmasked fixed) (ofReals u) (ofReals w) := by
    apply dotOver_congr_left
    intro i hi
    rw [← hu, getElem_vectorOfFn, if_neg (Bool.eq_false_iff.mp (mem_unmasked.mp hi))]
  rw [hcongr, dotOver_ofReals]
  exact ⟨_, rfl⟩

theorem foldl_maximum_finite (f : Fin n → ℝ) (is : List (Fin n)) :
    ∀ s : ℝ, ∃ m, is.foldl (fun m i => Scalar.maximum m (.finite (f i))) (Extended.finite s) =
      .finite m ∧ ∀ k, s ≤ k → (∀ i ∈ is, f i ≤ k) → m ≤ k := by
  induction is with
  | nil =>
    intro s
    exact ⟨s, rfl, fun _ hs _ => hs⟩
  | cons i is ih =>
    intro s
    obtain ⟨m, hm, hle⟩ := ih (max s (f i))
    refine ⟨m, ?_, ?_⟩
    . rw [List.foldl_cons, maximum_finite, hm]
    . intro k hs hf
      apply hle k (max_le hs (hf i List.mem_cons_self))
      intro j hj
      exact hf j (List.mem_cons_of_mem i hj)

theorem maximumOver_induction {α : Type} [Scalar α] {P : α → Prop} (hzero : P 0) {is : List (Fin n)}
    {f : Fin n → α} (hf : ∀ i ∈ is, P (f i)) : P (maximumOver is f) := by
  have hfold : ∀ (is : List (Fin n)) (m : α), P m → (∀ i ∈ is, P (f i)) →
      P (is.foldl (fun m i => Scalar.maximum m (f i)) m) := by
    intro is
    induction is with
    | nil => exact fun m hm _ => hm
    | cons i is ih =>
      intro m hm hf
      apply ih
      . dsimp only
        unfold Scalar.maximum
        split
        . exact hm
        . exact hf i List.mem_cons_self
      . intro j hj
        exact hf j (List.mem_cons_of_mem i hj)
  exact hfold is 0 hzero hf

theorem maximumOver_finite (is : List (Fin n)) (f : Fin n → ℝ) :
    ∃ m, maximumOver is (fun i => Extended.finite (f i)) = .finite m := by
  unfold maximumOver
  rw [zero_eq]
  obtain ⟨m, hm, _⟩ := foldl_maximum_finite f is 0
  exact ⟨m, hm⟩

end BoxDescent

import BoxDescent.Proofs.Exact.Vector

/-!
This module contains what happens to exact arithmetic when signs are turned around. A sign can be taken out
of sums, products and quotients, infinities and undefined values included; the only exception is a divisor
of zero, which has no sign to be taken out.
-/

namespace BoxDescent

namespace Extended

variable {a b c : Extended}

theorem neg_nan : -Extended.nan = .nan := rfl

theorem neg_finite_zero : -finite 0 = finite 0 := by
  rw [finite_neg, neg_zero]

theorem neg_infinity (r : ℝ) : -infinity r = infinity (-r) := by
  unfold infinity
  rcases lt_trichotomy r 0 with hr | hr | hr
  . rw [if_neg (not_lt.mpr hr.le), if_pos hr, if_pos (neg_pos.mpr hr)]
    rfl
  . subst hr
    simp [neg_nan]
  . rw [if_pos hr, if_neg (not_lt.mpr (neg_nonpos.mpr hr.le)), if_pos (neg_neg_iff_pos.mpr hr)]
    rfl

theorem neg_neg_eq : -(-a) = a := by
  cases a with
  | finite r => rw [finite_neg, finite_neg, neg_neg]
  | posInf => rfl
  | negInf => rfl
  | nan => rfl

theorem neg_add_eq : -a + -b = -(a + b) := by
  cases a with
  | finite r => cases b with
    | finite s =>
      simp only [finite_neg, finite_add, finite_inj]
      ring
    | posInf => rfl
    | negInf => rfl
    | nan => rfl
  | posInf => cases b <;> rfl
  | negInf => cases b <;> rfl
  | nan => cases b <;> rfl

theorem sub_eq_add : a - b = a + -b := rfl

theorem neg_sub_neg_eq : -a - -b = -(a - b) := by
  rw [sub_eq_add, sub_eq_add, neg_add_eq]

theorem neg_mul_eq : -a * b = -(a * b) := by
  cases a with
  | finite r => cases b with
    | finite s => simp only [finite_neg, finite_mul, neg_mul]
    | posInf => exact (neg_infinity r).symm
    | negInf => exact (neg_infinity (-r)).symm
    | nan => rfl
  | posInf => cases b with
    | finite s => exact (neg_infinity s).symm
    | posInf => rfl
    | negInf => rfl
    | nan => rfl
  | negInf => cases b with
    | finite s =>
      show infinity s = -infinity (-s)
      rw [neg_infinity, neg_neg]
    | posInf => rfl
    | negInf => rfl
    | nan => rfl
  | nan => cases b <;> rfl

theorem mul_neg_eq : a * -b = -(a * b) := by
  cases b with
  | finite s => cases a with
    | finite r => simp only [finite_neg, finite_mul, mul_neg]
    | posInf => exact (neg_infinity s).symm
    | negInf => exact (neg_infinity (-s)).symm
    | nan => rfl
  | posInf => cases a with
    | finite r => exact (neg_infinity r).symm
    | posInf => rfl
    | negInf => rfl
    | nan => rfl
  | negInf => cases a with
    | finite r =>
      show infinity r = -infinity (-r)
      rw [neg_infinity, neg_neg]
    | posInf => rfl
    | negInf => rfl
    | nan => rfl
  | nan => cases a <;> rfl

theorem neg_div_eq : -a / b = -(a / b) := by
  cases b with
  | finite s => cases a with
    | finite r =>
      rw [finite_neg]
      by_cases hs : s = 0
      . rw [hs, finite_div_zero, finite_div_zero, neg_infinity]
      . rw [finite_div hs, finite_div hs, finite_neg, neg_div]
    | posInf =>
      show (if s < 0 then Extended.posInf else .negInf) = -(if s < 0 then Extended.negInf else .posInf)
      split
      . rfl
      . rfl
    | negInf =>
      show (if s < 0 then Extended.negInf else .posInf) = -(if s < 0 then Extended.posInf else .negInf)
      split
      . rfl
      . rfl
    | nan => rfl
  | posInf => cases a with
    | finite r => exact neg_finite_zero.symm
    | posInf => rfl
    | negInf => rfl
    | nan => rfl
  | negInf => cases a with
    | finite r => exact neg_finite_zero.symm
    | posInf => rfl
    | negInf => rfl
    | nan => rfl
  | nan => cases a <;> rfl

theorem div_neg_eq (hb : b ≠ 0) : a / -b = -(a / b) := by
  cases b with
  | finite s =>
    have hs : s ≠ 0 := fun h => hb (congrArg finite h)
    rw [finite_neg]
    cases a with
    | finite r => rw [finite_div hs, finite_div (neg_ne_zero.mpr hs), finite_neg, div_neg]
    | posInf =>
      show (if -s < 0 then Extended.negInf else .posInf) = -(if s < 0 then Extended.negInf else .posInf)
      rcases lt_or_gt_of_ne hs with h | h
      . rw [if_neg (by linarith), if_pos h]
        rfl
      . rw [if_pos (by linarith), if_neg (by linarith)]
        rfl
    | negInf =>
      show (if -s < 0 then Extended.posInf else .negInf) = -(if s < 0 then Extended.posInf else .negInf)
      rcases lt_or_gt_of_ne hs with h | h
      . rw [if_neg (by linarith), if_pos h]
        rfl
      . rw [if_pos (by linarith), if_neg (by linarith)]
        rfl
    | nan => rfl
  | posInf => cases a with
    | finite r => exact neg_finite_zero.symm
    | posInf => rfl
    | negInf => rfl
    | nan => rfl
  | negInf => cases a with
    | finite r => exact neg_finite_zero.symm
    | posInf => rfl
    | negInf => rfl
    | nan => rfl
  | nan => cases a <;> rfl

theorem abs_neg_eq : Scalar.abs (-a) = Scalar.abs a := by
  cases a with
  | finite r => rw [finite_neg, abs_finite, abs_finite, abs_neg]
  | posInf => rfl
  | negInf => rfl
  | nan => rfl

theorem isFinite_neg : Scalar.isFinite (-a) = Scalar.isFinite a := by
  cases a <;> rfl

theorem neg_le_neg_eq : -a ≤ -b ↔ b ≤ a := by
  cases a with
  | finite r => cases b with
    | finite s => simp only [finite_neg, finite_le, neg_le_neg_iff]
    | posInf => exact Iff.rfl
    | negInf => exact Iff.rfl
    | nan => exact Iff.rfl
  | posInf => cases b <;> exact Iff.rfl
  | negInf => cases b <;> exact Iff.rfl
  | nan => cases b <;> exact Iff.rfl

theorem neg_lt_neg_eq : -a < -b ↔ b < a := by
  rw [Scalar.Lawful.lt_iff, Scalar.Lawful.lt_iff, neg_le_neg_eq, neg_le_neg_eq]

end Extended

open Extended

noncomputable def signed (s : Bool) (a : Extended) : Extended :=
  if s then -a else a

section Signed

variable {s t : Bool} {a b : Extended}

@[simp]
theorem signed_false : signed false a = a := rfl

@[simp]
theorem signed_true : signed true a = -a := rfl

@[simp]
theorem signed_zero : signed s 0 = 0 := by
  cases s with
  | false => rfl
  | true => exact neg_finite_zero

@[simp]
theorem signed_signed : signed s (signed t a) = signed (s ^^ t) a := by
  cases s <;> cases t <;> simp [neg_neg_eq]

theorem signed_neg : -signed s a = signed s (-a) := by
  cases s <;> rfl

theorem signed_add : signed s a + signed s b = signed s (a + b) := by
  cases s with
  | false => rfl
  | true => exact neg_add_eq

theorem signed_sub : signed s a - signed s b = signed s (a - b) := by
  cases s with
  | false => rfl
  | true => exact neg_sub_neg_eq

theorem signed_mul : signed s a * b = signed s (a * b) := by
  cases s with
  | false => rfl
  | true => exact neg_mul_eq

theorem mul_signed : a * signed s b = signed s (a * b) := by
  cases s with
  | false => rfl
  | true => exact mul_neg_eq

theorem signed_mul_signed : signed s a * signed t b = signed (s ^^ t) (a * b) := by
  rw [signed_mul, mul_signed, signed_signed]

theorem signed_mul_self : signed s a * signed s b = a * b := by
  rw [signed_mul_signed, Bool.xor_self, signed_false]

theorem signed_div : signed s a / b = signed s (a / b) := by
  cases s with
  | false => rfl
  | true => exact neg_div_eq

theorem signed_div_signed (hb : b ≠ 0) : signed s a / signed s b = a / b := by
  cases s with
  | false => rfl
  | true =>
    rw [signed_true, signed_true, neg_div_eq, div_neg_eq hb, neg_neg_eq]

@[simp]
theorem abs_signed : Scalar.abs (signed s a) = Scalar.abs a := by
  cases s with
  | false => rfl
  | true => exact abs_neg_eq

@[simp]
theorem isFinite_signed : Scalar.isFinite (signed s a) = Scalar.isFinite a := by
  cases s with
  | false => rfl
  | true => exact isFinite_neg

theorem sumOver_signed {n : Nat} (is : List (Fin n)) (f : Fin n → Extended) :
    sumOver is (fun i => signed s (f i)) = signed s (sumOver is f) := by
  have hfold : ∀ (is : List (Fin n)) (r : Extended),
      is.foldl (fun r i => r + signed s (f i)) (signed s r) =
        signed s (is.foldl (fun r i => r + f i) r) := by
    intro is
    induction is with
    | nil => exact fun _ => rfl
    | cons i is ih =>
      intro r
      rw [List.foldl_cons, List.foldl_cons, signed_add, ih]
  have h := hfold is 0
  rw [signed_zero] at h
  exact h

theorem dotOver_signed {n : Nat} {is : List (Fin n)} {u v u' v' : Vector Extended n}
    (h : ∀ i ∈ is, u'[i] * v'[i] = signed s (u[i] * v[i])) :
    dotOver is u' v' = signed s (dotOver is u v) := by
  unfold dotOver
  split
  . next i => exact h i (List.mem_singleton_self i)
  . rw [← sumOver_signed]
    exact sumOver_congr h

end Signed

variable {n : Nat}

/-- The vector with the signs of some entries turned around. -/
noncomputable def reflect (σ : Fin n → Bool) (v : Vector Extended n) : Vector Extended n :=
  Vector.ofFn fun i => signed (σ i) v[i]

noncomputable def Square.reflect (σ : Fin n → Bool) (m : Square Extended n) : Square Extended n :=
  .ofFn fun i j => signed (σ i ^^ σ j) m[i][j]

section Reflect

variable (σ : Fin n → Bool)

@[simp]
theorem getElem_reflect (v : Vector Extended n) (i : Fin n) : (reflect σ v)[i] = signed (σ i) v[i] := by
  unfold reflect
  rw [getElem_vectorOfFn]

@[simp]
theorem Square.getElem_reflect (m : Square Extended n) (i j : Fin n) :
    (Square.reflect σ m)[i][j] = signed (σ i ^^ σ j) m[i][j] := by
  unfold reflect
  rw [getElem_ofFn]

@[simp]
theorem reflect_reflect (v : Vector Extended n) : reflect σ (reflect σ v) = v := by
  apply vector_ext
  intro i
  rw [getElem_reflect, getElem_reflect, signed_signed, Bool.xor_self, signed_false]

theorem reflect_ofFn (f : Fin n → Extended) :
    Vector.ofFn (fun i => signed (σ i) (f i)) = reflect σ (Vector.ofFn f) := by
  apply vector_ext
  intro i
  rw [getElem_vectorOfFn, getElem_reflect, getElem_vectorOfFn]

theorem reflect_set (v : Vector Extended n) (i : Fin n) (a : Extended) :
    (reflect σ v).set i (signed (σ i) a) i.isLt = reflect σ (v.set i a i.isLt) := by
  apply vector_ext
  intro j
  rw [getElem_set, getElem_reflect, getElem_reflect, getElem_set]
  split
  . next hij => rw [hij]
  . rfl

theorem reflect_replicate_zero : reflect σ (Vector.replicate n 0) = Vector.replicate n 0 := by
  apply vector_ext
  intro i
  rw [getElem_reflect, getElem_replicate, signed_zero]

theorem dotOver_reflect (is : List (Fin n)) (u v : Vector Extended n) :
    dotOver is (reflect σ u) (reflect σ v) = dotOver is u v := by
  refine dotOver_signed (s := false) ?_
  intro i _
  rw [getElem_reflect, getElem_reflect, signed_mul_self, signed_false]

theorem normOver_reflect (is : List (Fin n)) (v : Vector Extended n) :
    normOver is (reflect σ v) = normOver is v := by
  unfold normOver
  rw [dotOver_reflect]

end Reflect

end BoxDescent

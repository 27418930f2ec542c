import Mathlib.Analysis.Real.Sqrt
import BoxDescent.Proofs.Scalar.Lawful

/-!
This module contains exact arithmetic: the reals with two infinities and an undefined value, which stand
for everything that is not a finite number. A quotient by zero is never finite. Between finite operands
all other operations are those of the reals, which is what the lemmas here say.
-/

namespace BoxDescent

section Literals

/-! The proofs that the literals of the reals and of small sets of positions need have names, so that a
literal is the same term in every definition. -/

instance neZero_one : NeZero 1 := inferInstance
instance neZero_two : NeZero 2 := inferInstance

instance atLeastTwo_two : Nat.AtLeastTwo 2 := inferInstance
instance atLeastTwo_three : Nat.AtLeastTwo 3 := inferInstance
instance atLeastTwo_four : Nat.AtLeastTwo 4 := inferInstance
instance atLeastTwo_five : Nat.AtLeastTwo 5 := inferInstance
instance atLeastTwo_seven : Nat.AtLeastTwo 7 := inferInstance
instance atLeastTwo_ten : Nat.AtLeastTwo 10 := inferInstance
instance atLeastTwo_hundred : Nat.AtLeastTwo 100 := inferInstance
instance atLeastTwo_million : Nat.AtLeastTwo 1000000 := inferInstance
instance atLeastTwo_fourHundredMillion : Nat.AtLeastTwo 400000000 := inferInstance

end Literals

inductive Extended where
  | finite (r : ℝ)
  | posInf
  | negInf
  | nan

namespace Extended

noncomputable def infinity (r : ℝ) : Extended :=
  if 0 < r then .posInf else if r < 0 then .negInf else .nan

protected def neg : Extended → Extended
  | .finite r => .finite (-r)
  | .posInf => .negInf
  | .negInf => .posInf
  | .nan => .nan

protected def add : Extended → Extended → Extended
  | .finite a, .finite b => .finite (a + b)
  | .nan, _ => .nan
  | _, .nan => .nan
  | .posInf, .negInf => .nan
  | .negInf, .posInf => .nan
  | .posInf, _ => .posInf
  | .negInf, _ => .negInf
  | .finite _, b => b

protected noncomputable def mul : Extended → Extended → Extended
  | .finite a, .finite b => .finite (a * b)
  | .nan, _ => .nan
  | _, .nan => .nan
  | .finite a, .posInf => infinity a
  | .finite a, .negInf => infinity (-a)
  | .posInf, .finite b => infinity b
  | .negInf, .finite b => infinity (-b)
  | .posInf, .posInf => .posInf
  | .negInf, .negInf => .posInf
  | .posInf, .negInf => .negInf
  | .negInf, .posInf => .negInf

protected noncomputable def div : Extended → Extended → Extended
  | .finite a, .finite b => if b = 0 then infinity a else .finite (a / b)
  | .nan, _ => .nan
  | _, .nan => .nan
  | .finite _, _ => .finite 0
  | .posInf, .finite b => if b < 0 then .negInf else .posInf
  | .negInf, .finite b => if b < 0 then .posInf else .negInf
  | _, _ => .nan

protected def le : Extended → Extended → Prop
  | .finite a, .finite b => a ≤ b
  | .nan, _ => False
  | _, .nan => False
  | .negInf, _ => True
  | _, .posInf => True
  | _, _ => False

protected noncomputable def sqrt : Extended → Extended
  | .finite r => if r < 0 then .nan else .finite (Real.sqrt r)
  | .posInf => .posInf
  | .negInf => .nan
  | .nan => .nan

protected def abs : Extended → Extended
  | .finite r => .finite |r|
  | .nan => .nan
  | _ => .posInf

protected def isFinite : Extended → Bool
  | .finite _ => true
  | _ => false

open Classical in
noncomputable instance : Scalar Extended where
  add := Extended.add
  sub a b := Extended.add a (Extended.neg b)
  mul := Extended.mul
  div := Extended.div
  neg := Extended.neg
  zero := .finite 0
  one := .finite 1
  ofScientific m s e := .finite (OfScientific.ofScientific m s e)
  le := Extended.le
  lt a b := Extended.le a b ∧ ¬Extended.le b a
  decLE _ _ := propDecidable _
  decLT _ _ := propDecidable _
  abs := Extended.abs
  sqrt := Extended.sqrt
  isFinite := Extended.isFinite
  ofCount n := .finite n

section Finite

variable {a b : ℝ}

theorem finite_inj : finite a = finite b ↔ a = b := by
  rw [finite.injEq]

@[simp]
theorem zero_eq : (0 : Extended) = finite 0 := rfl

@[simp]
theorem one_eq : (1 : Extended) = finite 1 := rfl

@[simp]
theorem ofScientific_eq (m : ℕ) (s : Bool) (e : ℕ) :
    (OfScientific.ofScientific m s e : Extended) = finite (OfScientific.ofScientific m s e) := rfl

@[simp]
theorem finite_neg : -finite a = finite (-a) := rfl

@[simp]
theorem finite_add : finite a + finite b = finite (a + b) := rfl

@[simp]
theorem finite_sub : finite a - finite b = finite (a - b) := by
  rw [sub_eq_add_neg]
  rfl

@[simp]
theorem finite_mul : finite a * finite b = finite (a * b) := rfl

theorem ofScientific_mul {m : ℕ} {s : Bool} {e : ℕ} (h : (OfScientific.ofScientific m s e : ℝ) * a = b) :
    (OfScientific.ofScientific m s e : Extended) * finite a = finite b := by
  rw [ofScientific_eq, finite_mul, h]

theorem finite_div (hb : b ≠ 0) : finite a / finite b = finite (a / b) := by
  show (if b = 0 then infinity a else finite (a / b)) = _
  rw [if_neg hb]

theorem finite_div_zero : finite a / finite 0 = infinity a := by
  show (if (0 : ℝ) = 0 then infinity a else finite (a / 0)) = _
  rw [if_pos rfl]

@[simp]
theorem finite_le : finite a ≤ finite b ↔ a ≤ b := Iff.rfl

@[simp]
theorem finite_lt : finite a < finite b ↔ a < b := by
  show a ≤ b ∧ ¬b ≤ a ↔ a < b
  exact lt_iff_le_not_ge.symm

@[simp]
theorem abs_finite : Scalar.abs (finite a) = finite |a| := rfl

theorem sqrt_finite (ha : 0 ≤ a) : Scalar.sqrt (finite a) = finite (Real.sqrt a) := by
  show (if a < 0 then nan else finite (Real.sqrt a)) = _
  rw [if_neg (not_lt.mpr ha)]

@[simp]
theorem isFinite_finite : Scalar.isFinite (finite a) = true := rfl

@[simp]
theorem ofCount_eq (n : ℕ) : (Scalar.ofCount n : Extended) = finite n := rfl

theorem isFinite_iff {v : Extended} : Scalar.isFinite v = true ↔ ∃ r, v = finite r := by
  cases v with
  | finite r => exact ⟨fun _ => ⟨r, rfl⟩, fun _ => rfl⟩
  | posInf => exact ⟨nofun, nofun⟩
  | negInf => exact ⟨nofun, nofun⟩
  | nan => exact ⟨nofun, nofun⟩

theorem not_isFinite_infinity : Scalar.isFinite (infinity a) = false := by
  unfold infinity
  split
  . rfl
  . split
    . rfl
    . rfl

@[simp]
theorem isUndefined_finite : Scalar.isUndefined (finite a) = false := by
  unfold Scalar.isUndefined
  simp

@[simp]
theorem pickMin_finite : Scalar.pickMin (finite a) (finite b) = finite (min a b) := by
  unfold Scalar.pickMin
  simp only [finite_lt]
  split
  . next h => rw [min_eq_right h.le]
  . next h => rw [min_eq_left (not_lt.mp h)]

@[simp]
theorem pickMax_finite : Scalar.pickMax (finite a) (finite b) = finite (max a b) := by
  unfold Scalar.pickMax
  simp only [finite_lt]
  split
  . next h => rw [max_eq_right h.le]
  . next h => rw [max_eq_left (not_lt.mp h)]

@[simp]
theorem maximum_finite : Scalar.maximum (finite a) (finite b) = finite (max a b) := by
  unfold Scalar.maximum
  simp only [finite_le, isUndefined_finite, Bool.false_eq_true, or_false]
  split
  . next h => rw [max_eq_left h]
  . next h => rw [max_eq_right (not_le.mp h).le]

@[simp]
theorem minimum_finite : Scalar.minimum (finite a) (finite b) = finite (min a b) := by
  unfold Scalar.minimum
  simp only [finite_le, isUndefined_finite, Bool.false_eq_true, or_false]
  split
  . next h => rw [min_eq_left h]
  . next h => rw [min_eq_right (not_le.mp h).le]

@[simp]
theorem equal_finite : Scalar.equal (finite a) (finite b) = decide (a = b) := by
  unfold Scalar.equal
  rw [← Bool.decide_and]
  simp only [finite_le, le_antisymm_iff]

@[simp]
theorem square_finite : Scalar.square (finite a) = finite (a * a) := rfl

@[simp]
theorem squareOverflows_finite : Scalar.squareOverflows (finite a) = false := by
  unfold Scalar.squareOverflows
  simp

end Finite

section Order

variable {a b c : Extended}

theorem le_self_iff : a ≤ a ↔ a ≠ .nan := by
  cases a with
  | finite r => exact ⟨fun _ => nofun, fun _ => le_refl r⟩
  | posInf => exact ⟨fun _ => nofun, fun _ => trivial⟩
  | negInf => exact ⟨fun _ => nofun, fun _ => trivial⟩
  | nan => exact ⟨False.elim, fun h => absurd rfl h⟩

theorem not_nan_le : ¬Extended.nan ≤ a :=
  fun h => h

theorem not_nan_lt : ¬Extended.nan < a :=
  fun h => h.1

theorem not_lt_nan : ¬a < Extended.nan := by
  intro h
  have hle : a ≤ Extended.nan := h.1
  cases a <;> exact hle

theorem not_le_nan : ¬a ≤ Extended.nan := by
  intro hle
  cases a <;> exact hle

theorem nan_add : Extended.nan + a = .nan := by
  cases a <;> rfl

theorem add_nan : a + Extended.nan = .nan := by
  cases a <;> rfl

theorem nan_sub : Extended.nan - a = .nan := by
  cases a <;> rfl

theorem nan_mul : Extended.nan * a = .nan := by
  cases a <;> rfl

theorem mul_nan : a * Extended.nan = .nan := by
  cases a <;> rfl

theorem div_nan : a / Extended.nan = .nan := by
  cases a <;> rfl

theorem sub_nan : a - Extended.nan = .nan := by
  cases a <;> rfl

theorem nan_div : Extended.nan / a = .nan := by
  cases a <;> rfl

theorem eq_finite_of_neg {r : ℝ} (h : -a = finite r) : ∃ s, a = finite s := by
  cases a with
  | finite s => exact ⟨s, rfl⟩
  | posInf => cases h
  | negInf => cases h
  | nan => cases h

theorem eq_finite_of_sub {r : ℝ} (h : a - b = finite r) : ∃ s, a = finite s := by
  cases a with
  | finite s => exact ⟨s, rfl⟩
  | posInf => cases b <;> cases h
  | negInf => cases b <;> cases h
  | nan => cases b <;> cases h

theorem eq_finite_of_div {r : ℝ} (h : a / b = finite r) : ∃ s, a = finite s := by
  cases a with
  | finite s => exact ⟨s, rfl⟩
  | posInf =>
    cases b with
    | finite d =>
      change (if d < 0 then negInf else posInf) = finite r at h
      split at h
      . cases h
      . cases h
    | posInf => cases h
    | negInf => cases h
    | nan => cases h
  | negInf =>
    cases b with
    | finite d =>
      change (if d < 0 then posInf else negInf) = finite r at h
      split at h
      . cases h
      . cases h
    | posInf => cases h
    | negInf => cases h
    | nan => cases h
  | nan =>
    rw [nan_div] at h
    cases h

theorem eq_finite_of_le_of_le {r s : ℝ} (hr : finite r ≤ a) (hs : a ≤ finite s) :
    ∃ t, a = finite t := by
  cases a with
  | finite t => exact ⟨t, rfl⟩
  | posInf => exact hs.elim
  | negInf => exact hr.elim
  | nan => exact hs.elim

instance : Scalar.Lawful Extended where
  le_self_left := by
    intro a b h
    rw [le_self_iff]
    intro ha
    subst ha
    exact h
  le_self_right := by
    intro a b h
    rw [le_self_iff]
    intro hb
    subst hb
    cases a <;> exact h
  le_trans := by
    intro a b c hab hbc
    cases a <;> cases b <;> cases c <;> first | exact le_trans (α := ℝ) hab hbc | trivial
  le_total := by
    intro a b ha hb
    cases a <;> cases b <;>
      first
      | exact le_total (α := ℝ) _ _
      | exact Or.inl trivial
      | exact Or.inr trivial
      | exact ha.elim
      | exact hb.elim
  lt_iff := Iff.rfl
  le_self_of_isFinite := by
    intro a h
    obtain ⟨r, rfl⟩ := isFinite_iff.mp h
    exact le_refl r
  neg_nonpos := by
    intro a h
    cases a with
    | finite r =>
      simp only [zero_eq, finite_neg, finite_le] at h ⊢
      linarith
    | posInf => trivial
    | negInf => exact h.elim
    | nan => exact h.elim
  add_undefined := by
    intro a b h
    rw [le_self_iff, not_not] at h
    rw [h, nan_add]
    exact id
  sub_undefined := by
    intro a b h
    rw [le_self_iff, not_not] at h
    rw [h, sub_nan]
    exact id
  div_undefined := by
    intro a b h
    rw [le_self_iff, not_not] at h
    rw [h, nan_div]
    exact id

instance : Scalar.Strict Extended where
  one_le := le_refl (1 : ℝ)
  isFinite_zero := rfl
  isFinite_of_le_of_le := by
    intro a b c ha hab hbc hc
    obtain ⟨r, rfl⟩ := isFinite_iff.mp ha
    obtain ⟨s, rfl⟩ := isFinite_iff.mp hc
    obtain ⟨t, rfl⟩ := eq_finite_of_le_of_le hab hbc
    rfl
  add_undefined_right := by
    intro a b h
    rw [le_self_iff, not_not] at h
    rw [h, add_nan]
    exact id
  mul_undefined := by
    intro a b h
    rw [le_self_iff, not_not] at h
    rw [h, nan_mul]
    exact id
  mul_undefined_right := by
    intro a b h
    rw [le_self_iff, not_not] at h
    rw [h, mul_nan]
    exact id
  le_double := by
    intro a h
    cases a with
    | finite r => exact le_refl (_ : ℝ)
    | posInf =>
      show infinity _ ≤ infinity _
      rw [infinity, if_pos (by norm_num)]
      trivial
    | negInf =>
      show infinity _ ≤ infinity _
      rw [infinity, if_neg (by norm_num), if_pos (by norm_num)]
      trivial
    | nan => exact h.elim

end Order

end Extended

end BoxDescent

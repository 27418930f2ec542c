import BoxDescent.Scalar

/-!
This module contains the laws that an arithmetic keeps however it rounds: its defined values are linearly
preordered, an undefined value compares with nothing, and sums, differences and quotients of undefined
values are undefined. Doubles keep these laws. Nothing is said of the value that an operation answers.
`Scalar.Strict` lists further laws of this kind, which doubles keep as well.
-/

namespace BoxDescent

class Scalar.Lawful (α : Type) [Scalar α] : Prop where
  le_self_left : ∀ {a b : α}, a ≤ b → a ≤ a
  le_self_right : ∀ {a b : α}, a ≤ b → b ≤ b
  le_trans : ∀ {a b c : α}, a ≤ b → b ≤ c → a ≤ c
  le_total : ∀ {a b : α}, a ≤ a → b ≤ b → a ≤ b ∨ b ≤ a
  lt_iff : ∀ {a b : α}, a < b ↔ a ≤ b ∧ ¬b ≤ a
  le_self_of_isFinite : ∀ {a : α}, Scalar.isFinite a = true → a ≤ a
  neg_nonpos : ∀ {a : α}, 0 ≤ a → -a ≤ 0
  add_undefined : ∀ {a b : α}, ¬a ≤ a → ¬a + b ≤ a + b
  sub_undefined : ∀ {a b : α}, ¬b ≤ b → ¬a - b ≤ a - b
  div_undefined : ∀ {a b : α}, ¬a ≤ a → ¬a / b ≤ a / b

/-- An undefined operand leaves neither a sum nor a product defined, and what lies between two finite
values is finite. -/
class Scalar.Strict (α : Type) [Scalar α] : Prop extends Scalar.Lawful α where
  one_le : (1 : α) ≤ 1
  isFinite_zero : Scalar.isFinite (0 : α) = true
  isFinite_of_le_of_le : ∀ {a b c : α}, Scalar.isFinite a = true → a ≤ b → b ≤ c →
    Scalar.isFinite c = true → Scalar.isFinite b = true
  add_undefined_right : ∀ {a b : α}, ¬b ≤ b → ¬a + b ≤ a + b
  mul_undefined : ∀ {a b : α}, ¬a ≤ a → ¬a * b ≤ a * b
  mul_undefined_right : ∀ {a b : α}, ¬b ≤ b → ¬a * b ≤ a * b
  le_double : ∀ {a : α}, a ≤ a → 2.0 * a ≤ 2.0 * a

namespace Scalar

open Lawful

variable {α : Type} [Scalar α] [Lawful α] {a b c : α}

theorem lt_irrefl : ¬a < a := by
  rw [lt_iff]
  intro h
  exact h.2 h.1

theorem le_of_lt (h : a < b) : a ≤ b := (lt_iff.mp h).1

theorem not_le_of_lt (h : a < b) : ¬b ≤ a := (lt_iff.mp h).2

theorem lt_of_not_le (ha : a ≤ a) (hb : b ≤ b) (h : ¬a ≤ b) : b < a := by
  rw [lt_iff]
  cases le_total ha hb with
  | inl hab => exact absurd hab h
  | inr hba => exact ⟨hba, h⟩

theorem lt_of_lt_of_le (hab : a < b) (hbc : b ≤ c) : a < c := by
  rw [lt_iff]
  constructor
  . exact le_trans (le_of_lt hab) hbc
  . intro hca
    exact not_le_of_lt hab (le_trans hbc hca)

theorem lt_of_le_of_lt (hab : a ≤ b) (hbc : b < c) : a < c := by
  rw [lt_iff]
  constructor
  . exact le_trans hab (le_of_lt hbc)
  . intro hca
    exact not_le_of_lt hbc (le_trans hca hab)

theorem pickMin_le_self (ha : a ≤ a) : pickMin a b ≤ pickMin a b := by
  unfold pickMin
  split
  . next hlt => exact le_self_left (le_of_lt hlt)
  . exact ha

end Scalar

structure Precision.Positive {α : Type} [Scalar α] (p : Precision α) : Prop where
  epsilon : 0 < p.epsilon
  zero : 0 < p.zero

end BoxDescent

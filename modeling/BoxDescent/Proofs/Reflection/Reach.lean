import BoxDescent.Proofs.LineSearch.Feasible
import BoxDescent.Proofs.Reflection.ActiveSet
import BoxDescent.Proofs.Reflection.Problem

/-!
This module contains how far one can go along a ray in reflected coordinates: just as far. The distance to a
bound is a quotient with the direction below the line, but only a variable whose direction is not zero heads
into a bound.
-/

namespace BoxDescent

open Extended

variable {n : Nat} (σ : Fin n → Bool)

def Extended.IsDirected (d : Extended) : Prop :=
  d < 0 ∨ 0 < d

namespace LineSearch

theorem ne_zero_of_isDirected {d : Extended} (h : d.IsDirected) : d ≠ 0 := by
  rintro rfl
  cases h with
  | inl h => exact Scalar.lt_irrefl h
  | inr h => exact Scalar.lt_irrefl h

theorem towards_reflect {d : Extended} (h : d.IsDirected) (s : Bool) :
    towards (signed s d) = (towards d).turned s := by
  cases s with
  | false => rfl
  | true =>
    have hneg : 0 < -d ↔ d < 0 := by
      have h := neg_lt_neg_eq (a := 0) (b := d)
      rw [zero_eq, neg_finite_zero] at h
      exact h
    unfold towards
    rw [signed_true]
    simp only [gt_iff_lt, hneg]
    cases h with
    | inl h =>
      rw [if_pos h, if_neg fun hpos => Scalar.not_le_of_lt h (Scalar.le_of_lt hpos)]
      rfl
    | inr h =>
      rw [if_pos h, if_neg fun hneg => Scalar.not_le_of_lt h (Scalar.le_of_lt hneg)]
      rfl

def Leads (epsilon d : Extended) : Side → Prop
  | .lower => d < -epsilon
  | .upper => epsilon < d

section Heading

variable {working : Bounds Extended n} {epsilon : Extended} (he : 0 < epsilon) {d : Extended} {i : Fin n}
include he

theorem isDirected_of_leads {side : Side} (h : Leads epsilon d side) : d.IsDirected := by
  cases side with
  | lower => exact Or.inl (Scalar.lt_of_lt_of_le h (Scalar.Lawful.neg_nonpos (Scalar.le_of_lt he)))
  | upper => exact Or.inr (Scalar.lt_of_lt_of_le he (Scalar.le_of_lt h))

theorem heading_eq_some_iff {side : Side} {v : Extended} :
    heading working epsilon d i = some (side, v) ↔
      Leads epsilon d side ∧ working.bound i side = some v := by
  -- No variable leads to both sides, so it does not matter which one is asked first.
  constructor
  . intro h
    refine ⟨?_, bound_of_heading h⟩
    cases direction_of_heading h with
    | inl hd =>
      rw [hd.1]
      exact hd.2
    | inr hd =>
      rw [hd.1]
      exact hd.2
  . rintro ⟨hleads, hv⟩
    unfold heading
    cases side with
    | lower => rw [if_pos (show d < -epsilon from hleads), hv]
    | upper =>
      have hlower : ¬d < -epsilon := by
        intro hlower
        have hneg := Scalar.lt_of_lt_of_le hlower (Scalar.Lawful.neg_nonpos (Scalar.le_of_lt he))
        exact Scalar.not_le_of_lt (Scalar.lt_of_lt_of_le he (Scalar.le_of_lt hleads)) (Scalar.le_of_lt hneg)
      rw [if_neg hlower, if_pos (show d > epsilon from hleads), hv]

omit he in
theorem leads_reflect (s : Bool) (side : Side) :
    Leads epsilon (signed s d) (side.turned s) ↔ Leads epsilon d side := by
  cases s with
  | false => exact Iff.rfl
  | true => cases side with
    | lower =>
      show epsilon < -d ↔ d < -epsilon
      rw [← neg_lt_neg_eq, neg_neg_eq]
    | upper => exact neg_lt_neg_eq

theorem heading_reflect : heading (working.reflect σ) epsilon (signed (σ i) d) i =
    (heading working epsilon d i).map fun heads => (heads.1.turned (σ i), signed (σ i) heads.2) := by
  cases h : heading working epsilon d i with
  | some heads =>
    obtain ⟨side, v⟩ := heads
    rw [heading_eq_some_iff he] at h
    show _ = some (side.turned (σ i), signed (σ i) v)
    rw [heading_eq_some_iff he, leads_reflect, Bounds.bound_reflect_turned, h.2]
    exact ⟨h.1, rfl⟩
  | none =>
    rw [Option.map_none, Option.eq_none_iff_forall_ne_some]
    rintro ⟨side, v⟩ hside
    rw [heading_eq_some_iff he, Bounds.bound_reflect, Option.map_eq_some_iff] at hside
    obtain ⟨hleads, w, hw, _⟩ := hside
    rw [← @Side.turned_turned (σ i) side, leads_reflect] at hleads
    have hsome := (heading_eq_some_iff he).mpr ⟨hleads, hw⟩
    rw [h] at hsome
    cases hsome

end Heading

noncomputable def Reach.reflect (s : Reach Extended n) : Reach Extended n :=
  { s with x := BoxDescent.reflect σ s.x, activeSet := s.activeSet.reflect σ }

def Reach.IsDirected (s : Reach Extended n) (direction : Vector Extended n) : Prop :=
  ∀ i : Fin n, s.blocking = some i → direction[i].IsDirected

variable {p : Precision Extended} (hp : p.Positive) (direction : Vector Extended n)
include hp

theorem look_reflect {s : Reach Extended n} (hs : s.IsDirected direction) (i : Fin n) :
    Reflected σ (fun s s' => s' = s.reflect σ ∧ s.IsDirected direction) (Reach.look p direction s i)
      (Reach.look p (BoxDescent.reflect σ direction) (s.reflect σ) i) := by
  unfold Reach.look
  rw [getElem_reflect, show (s.reflect σ).activeSet.working = s.activeSet.working.reflect σ from rfl,
    heading_reflect σ hp.epsilon]
  cases hheading : heading s.activeSet.working p.epsilon direction[i] i with
  | none => exact Logged.parallel_pure ⟨rfl, hs⟩
  | some heads =>
    obtain ⟨side, v⟩ := heads
    have hdirected := isDirected_of_leads hp.epsilon ((heading_eq_some_iff hp.epsilon).mp hheading).1
    have hratio : (signed (σ i) v - (s.reflect σ).x[i]) / signed (σ i) direction[i] =
        (v - s.x[i]) / direction[i] := by
      rw [show (s.reflect σ).x = BoxDescent.reflect σ s.x from rfl, getElem_reflect, signed_sub,
        signed_div_signed (ne_zero_of_isDirected hdirected)]
    dsimp only [Option.map_some]
    rw [hratio]
    split
    . apply reflected_note_bind
      apply Logged.parallel_pure
      refine ⟨?_, hs⟩
      unfold Reach.reflect
      dsimp only
      rw [reflect_set, ActiveSet.fix_reflect]
    . rw [show (s.reflect σ).step = s.step from rfl]
      split
      . apply Logged.parallel_pure
        refine ⟨rfl, ?_⟩
        intro j hj
        cases hj
        exact hdirected
      . exact Logged.parallel_pure ⟨rfl, hs⟩

theorem reach_reflect (x : Vector Extended n) (a : ActiveSet Extended n) (is : List (Fin n)) :
    Reflected σ (fun s s' => s' = s.reflect σ ∧ s.IsDirected direction) (reach p direction x a is)
      (reach p (BoxDescent.reflect σ direction) (BoxDescent.reflect σ x) (a.reflect σ) is) := by
  unfold reach
  apply Logged.parallel_foldlM
  . rintro i _ s _ ⟨rfl, hs⟩
    exact look_reflect σ hp direction hs i
  . exact ⟨rfl, nofun⟩

end LineSearch

end BoxDescent

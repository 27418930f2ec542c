import BoxDescent.Proofs.Problem
import BoxDescent.Proofs.Release
import BoxDescent.Proofs.Reflection.ActiveSet
import BoxDescent.Proofs.Reflection.Problem

/-!
This module contains the decision about held variables in reflected coordinates. It is the same, unless a row
of the Hessian is asked for with its sign turned around: the change of a multiplier is added to it without
regard to the side of the bound.
-/

namespace BoxDescent

def Problem.LacksRow {α : Type} {n : Nat} (p : Problem α n) (i : Fin n) : Prop :=
  ∀ row, p.hessianRow = some row → ∀ x h, row x i = .ok h → h = none

theorem Problem.LacksRow.eval {α : Type} {n : Nat} {p : Problem α n} {i : Fin n} (h : p.LacksRow i)
    {x : Vector α n} {row : Option (Vector α n)} (hrow : (p.evalHessianRow x i).result = .ok row) :
    row = none := by
  cases hrows : p.hessianRow with
  | none =>
    rw [Problem.evalHessianRow_of_none hrows] at hrow
    cases hrow
    rfl
  | some rows => exact h rows hrows x row ((Problem.evalHessianRow_ok_iff hrows).mp hrow)

namespace Release

variable {n : Nat} {σ : Fin n → Bool}

def Decision.Alike {ι : Type} (d d' : Decision Extended ι) : Prop :=
  d.indices = d'.indices ∧ Corresponds Error.Alike Eq d.verdict d'.verdict

section Scan

variable {ι : Type} [BEq ι] {estimate estimate' : ι → Run Extended n (Estimate Extended)}

theorem scan_reflect (previous : Option (List ι)) (todo : List ι)
    (hestimate : ∀ i ∈ todo, Reflected σ Eq (estimate i) (estimate' i)) :
    ∀ s : Scan ι, Reflected σ Decision.Alike (scan estimate previous s todo)
      (scan estimate' previous s todo) := by
  induction todo with
  | nil =>
    intro s
    exact Logged.parallel_pure ⟨rfl, .ok rfl⟩
  | cons i todo ih =>
    intro s
    unfold scan
    apply Logged.Parallel.bind (hestimate i List.mem_cons_self).attempt
    intro outcome outcome' houtcome
    cases houtcome with
    | error he => exact Logged.parallel_pure ⟨rfl, .error he⟩
    | ok hr =>
      rw [hr]
      exact ih (fun j hj => hestimate j (List.mem_cons_of_mem i hj)) _

theorem decision_reflect (previous : Option (List ι)) (indices : List ι)
    (hestimate : ∀ i ∈ indices, Reflected σ Eq (estimate i) (estimate' i)) :
    Reflected σ Decision.Alike (decision estimate previous indices)
      (decision estimate' previous indices) := by
  unfold decision
  apply reflected_note_bind
  exact scan_reflect previous _ (fun i hi => hestimate i (List.mem_reverse.mp hi)) _

end Scan

variable (σ) {τ : Fin n → Bool} {p : Problem Extended n} {b : Bounds Extended n}
  {a : ActiveSet Extended n} {x : Vector Extended n} (hsep : b.Separates x)
  (grad step : Vector Extended n)
include hsep

theorem estimate_reflect (hbounds : a.bounds = b) {i : Fin n} (hi : τ i = true → p.LacksRow i) :
    Reflected σ Eq (estimate p a x grad step i) (estimate (p.reflect σ τ) (a.reflect σ)
      (BoxDescent.reflect σ x) (BoxDescent.reflect σ grad) (BoxDescent.reflect σ step) i) := by
  have hrest : ∀ (change : Extended) (secondOrder : Bool), Reflected σ Eq
      (do
        let first ← Logged.ofExcept (a.multiplier x grad i)
        let e : Estimate Extended := { first, change, secondOrder }
        note (.multipliers i.val e.first e.second)
        return e)
      (do
        let first ← Logged.ofExcept ((a.reflect σ).multiplier (BoxDescent.reflect σ x)
          (BoxDescent.reflect σ grad) i)
        let e : Estimate Extended := { first, change, secondOrder }
        note (.multipliers i.val e.first e.second)
        return e) := by
    intro change secondOrder
    apply Logged.Parallel.bind
      (Logged.parallel_ofExcept (ActiveSet.multiplier_reflect σ hbounds hsep grad i))
    rintro first _ rfl
    exact reflected_note_bind (Logged.parallel_pure rfl)
  unfold estimate
  apply Logged.Parallel.bind ((p.evalHessianRow_reflect σ τ x i).withValue (Logged.meets_self _))
  rintro row _ ⟨rfl, hrow⟩
  cases row with
  | none => exact hrest 0 false
  | some h =>
    have hτ : τ i = false := by
      apply Bool.eq_false_iff.mpr
      intro hτ
      exact Option.some_ne_none h ((hi hτ).eval hrow)
    have hchange : dotOver (a.reflect σ).free (BoxDescent.reflect (fun j => τ i ^^ σ j) h)
        (BoxDescent.reflect σ step) = dotOver a.free h step := by
      simp only [hτ, Bool.false_xor]
      exact dotOver_reflect σ a.free h step
    dsimp only [Option.map_some]
    rw [hchange]
    exact hrest _ true

theorem select_reflect (ha : a.Holds b a.indices x)
    (hrows : ∀ i side v, b.bound i side = some v → τ i = true → p.LacksRow i)
    (previous : Option (List (Fin n))) :
    Reflected σ Decision.Alike (select p a x grad step previous) (select (p.reflect σ τ) (a.reflect σ)
      (BoxDescent.reflect σ x) (BoxDescent.reflect σ grad) (BoxDescent.reflect σ step) previous) := by
  unfold select
  apply decision_reflect
  intro i hi
  obtain ⟨side, hheld⟩ := ha.sits i ((ha.mem i).mp hi)
  exact estimate_reflect σ hsep grad step ha.bounds (hrows i side _ hheld.original)

end Release

end BoxDescent

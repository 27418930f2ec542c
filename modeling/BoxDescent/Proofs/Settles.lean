import BoxDescent.Proofs.Logged

/-!
This module contains computations that are given some amount of fuel. Such a computation settles if from
some amount on it does not depend on it any more; `Settles.bind` is how this composes.
-/

namespace BoxDescent

namespace Logged

variable {ω ε β γ : Type} {E : ε → Prop} {P : β → Prop} {Q : γ → Prop}

/-- With enough fuel the computation is always the same one, and that one meets `E` and `P`. -/
def Settles (x : Nat → Logged ω ε β) (E : ε → Prop) (P : β → Prop) : Prop :=
  ∃ enough y, (∀ fuel, enough ≤ fuel → x fuel = y) ∧ y.Meets (fun _ => True) E P

theorem Meets.settles {x : Logged ω ε β} (hx : x.Meets (fun _ => True) E P) :
    Settles (fun _ => x) E P :=
  ⟨0, x, fun _ _ => rfl, hx⟩

theorem Settles.eventually {x : Nat → Logged ω ε β} (hx : Settles x E P) :
    ∃ enough, ∀ fuel, enough ≤ fuel → (x fuel).Meets (fun _ => True) E P := by
  obtain ⟨enough, y, heq, hy⟩ := hx
  refine ⟨enough, ?_⟩
  intro fuel hfuel
  rw [heq fuel hfuel]
  exact hy

theorem Settles.succ {x y : Nat → Logged ω ε β} (hx : ∀ fuel, x (fuel + 1) = y fuel)
    (hy : Settles y E P) : Settles x E P := by
  obtain ⟨enough, z, heq, hz⟩ := hy
  refine ⟨enough + 1, z, ?_, hz⟩
  intro fuel hfuel
  cases fuel with
  | zero => omega
  | succ fuel =>
    rw [hx]
    exact heq fuel (by omega)

theorem Settles.imp {x : Nat → Logged ω ε β} {Q : β → Prop} (hx : Settles x E P) (h : ∀ b, P b → Q b) :
    Settles x E Q := by
  obtain ⟨enough, y, heq, hy⟩ := hx
  exact ⟨enough, y, heq, hy.imp h⟩

theorem Settles.self {x : Nat → Logged ω ε β} (hx : Settles x E P) : Settles x E fun b =>
    P b ∧ ∃ enough, ∀ fuel, enough ≤ fuel → (x fuel).result = .ok b := by
  obtain ⟨enough, y, heq, hy⟩ := hx
  refine ⟨enough, y, heq, (hy.withValue (meets_self y)).imp ?_⟩
  intro b hb
  refine ⟨hb.1, enough, ?_⟩
  intro fuel hfuel
  rw [heq fuel hfuel]
  exact hb.2

theorem Settles.withValue {x : Nat → Logged ω ε β} {L : ω → Prop} {E' : ε → Prop} {Q : β → Prop}
    (hx : Settles x E P) (hq : ∀ fuel, (x fuel).Meets L E' Q) :
    Settles x E (fun b => P b ∧ Q b) := by
  obtain ⟨enough, y, heq, hy⟩ := hx
  have hq' := hq enough
  rw [heq enough (Nat.le_refl _)] at hq'
  exact ⟨enough, y, heq, hy.withValue hq'⟩

theorem Settles.bind {x : Nat → Logged ω ε β} {f : Nat → β → Logged ω ε γ} (hx : Settles x E P)
    (hf : ∀ b, P b → Settles (fun fuel => f fuel b) E Q) :
    Settles (fun fuel => x fuel >>= f fuel) E Q := by
  obtain ⟨enough, y, heq, hy⟩ := hx
  cases hresult : y.result with
  | error e =>
    refine ⟨enough, y >>= f 0, ?_, ?_⟩
    . intro fuel hfuel
      dsimp only
      rw [heq fuel hfuel, bind_eq_of_error hresult, bind_eq_of_error hresult]
    . refine Meets.bind (P := fun _ => False) ⟨hy.log, hy.error, ?_⟩ fun b hb => hb.elim
      intro b hb
      rw [hresult] at hb
      cases hb
  | ok b =>
    obtain ⟨enough', z, heq', hz⟩ := hf b (hy.value b hresult)
    refine ⟨max enough enough', y >>= fun _ => z, ?_, hy.bind fun _ _ => hz⟩
    intro fuel hfuel
    dsimp only
    have hf' : f fuel b = z := heq' fuel (by omega)
    rw [heq fuel (by omega), bind_eq_of_ok hresult, bind_eq_of_ok hresult, hf']

end Logged

end BoxDescent

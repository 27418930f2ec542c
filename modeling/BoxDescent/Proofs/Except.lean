import BoxDescent.Proofs.Vector

/-!
This module contains how computations that may fail are taken apart.
-/

namespace BoxDescent

variable {ε β γ δ : Type}

theorem except_ok_bind (b : β) (f : β → Except ε γ) : (Except.ok b >>= f) = f b :=
  rfl

theorem except_map_bind (a : Except ε β) (f : β → Except ε γ) (g : γ → δ) :
    (a >>= f).map g = a >>= fun b => (f b).map g := by
  cases a with
  | error e => rfl
  | ok b => rfl

theorem except_bind_eq_ok_iff {a : Except ε β} {f : β → Except ε γ} {c : γ} :
    a >>= f = .ok c ↔ ∃ b, a = .ok b ∧ f b = .ok c := by
  cases a with
  | error e => exact ⟨nofun, nofun⟩
  | ok b => exact ⟨fun h => ⟨b, rfl, h⟩, fun ⟨_, hb, h⟩ => Except.ok.inj hb ▸ h⟩

theorem length_of_mapM {f : β → Except ε γ} {xs : List β} {ys : List γ} (h : xs.mapM f = .ok ys) :
    ys.length = xs.length := by
  induction xs generalizing ys with
  | nil =>
    cases h
    rfl
  | cons x xs ih =>
    rw [List.mapM_cons] at h
    obtain ⟨y, _, h⟩ := except_bind_eq_ok_iff.mp h
    obtain ⟨rest, hrest, h⟩ := except_bind_eq_ok_iff.mp h
    cases h
    rw [List.length_cons, List.length_cons, ih hrest]

theorem ofFnM_eq_ok_iff {n : Nat} {f : Fin n → Except ε β} {v : Vector β n} :
    Vector.ofFnM f = .ok v ↔ ∀ i : Fin n, f i = .ok v[i] := by
  constructor
  . induction n with
    | zero => exact fun _ i => i.elim0
    | succ n ih =>
      intro h
      rw [Vector.ofFnM_succ] at h
      obtain ⟨u, hu, h⟩ := except_bind_eq_ok_iff.mp h
      obtain ⟨b, hb, h⟩ := except_bind_eq_ok_iff.mp h
      cases h
      intro i
      cases i using Fin.lastCases with
      | last =>
        rw [hb, ← getElem_val]
        simp
      | cast i =>
        rw [ih hu, ← getElem_val, ← getElem_val]
        simp [-getElem_val]
  . intro h
    have hf : f = fun i => pure v[i] := funext h
    rw [hf, Vector.ofFnM_pure]
    congr 1
    apply vector_ext
    intro i
    rw [getElem_vectorOfFn]

end BoxDescent

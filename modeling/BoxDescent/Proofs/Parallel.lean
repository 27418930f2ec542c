import Mathlib.Data.List.Forall2
import BoxDescent.Proofs.Logged

/-!
This module contains what can be said of two computations that run in parallel: their logs correspond entry
by entry, and they end in corresponding errors or in corresponding values. `Parallel.bind` is how such
statements compose, and `parallel_foldlM` is the rule for loops.
-/

namespace BoxDescent

/-- Corresponding errors or corresponding values. -/
inductive Corresponds {ε ε' β β' : Type} (E : ε → ε' → Prop) (R : β → β' → Prop) :
    Except ε β → Except ε' β' → Prop where
  | ok {b : β} {c : β'} : R b c → Corresponds E R (.ok b) (.ok c)
  | error {e : ε} {e' : ε'} : E e e' → Corresponds E R (.error e) (.error e')

section Results

variable {ε ε' β β' γ γ' : Type} {E : ε → ε' → Prop} {R : β → β' → Prop} {S : γ → γ' → Prop}

theorem Corresponds.exists_of_ok {b : β} {y : Except ε' β'} (h : Corresponds E R (.ok b) y) :
    ∃ c, y = .ok c ∧ R b c := by
  cases h with
  | ok hr => exact ⟨_, rfl, hr⟩

theorem Corresponds.exists_of_error {e : ε} {y : Except ε' β'} (h : Corresponds E R (.error e) y) :
    ∃ e', y = .error e' ∧ E e e' := by
  cases h with
  | error he => exact ⟨_, rfl, he⟩

theorem Corresponds.imp {R' : β → β' → Prop} {x : Except ε β} {y : Except ε' β'}
    (h : Corresponds E R x y) (himp : ∀ b c, x = .ok b → R b c → R' b c) : Corresponds E R' x y := by
  cases h with
  | ok hr => exact .ok (himp _ _ rfl hr)
  | error he => exact .error he

theorem Corresponds.bind {x : Except ε β} {y : Except ε' β'} {f : β → Except ε γ}
    {g : β' → Except ε' γ'} (hx : Corresponds E R x y)
    (hf : ∀ b c, R b c → Corresponds E S (f b) (g c)) : Corresponds E S (x >>= f) (y >>= g) := by
  cases hx with
  | ok hr => exact hf _ _ hr
  | error he => exact .error he

theorem Corresponds.map {x : Except ε β} {y : Except ε' β'} {f : β → γ} {g : β' → γ'}
    (h : Corresponds E R x y) (hf : ∀ b c, R b c → S (f b) (g c)) :
    Corresponds E S (x.map f) (y.map g) := by
  cases h with
  | ok hr => exact .ok (hf _ _ hr)
  | error he => exact .error he

theorem corresponds_ite {c : Prop} [Decidable c] {x x' : Except ε β} {y y' : Except ε' β'}
    (ht : Corresponds E R x y) (he : Corresponds E R x' y') :
    Corresponds E R (if c then x else x') (if c then y else y') := by
  split
  . exact ht
  . exact he

theorem corresponds_foldlM {ι σ σ' : Type} {R : σ → σ' → Prop} {f : σ → ι → Except ε σ}
    {g : σ' → ι → Except ε' σ'} {is : List ι}
    (hstep : ∀ i ∈ is, ∀ s s', R s s' → Corresponds E R (f s i) (g s' i)) :
    ∀ s s', R s s' → Corresponds E R (is.foldlM f s) (is.foldlM g s') := by
  induction is with
  | nil =>
    intro s s' h
    exact .ok h
  | cons i is ih =>
    intro s s' h
    rw [List.foldlM_cons, List.foldlM_cons]
    apply Corresponds.bind (hstep i List.mem_cons_self s s' h)
    exact ih fun j hj => hstep j (List.mem_cons_of_mem i hj)

theorem corresponds_mapM {ι : Type} {f : ι → Except ε β} {g : ι → Except ε' β} {is : List ι}
    (hstep : ∀ i ∈ is, Corresponds E Eq (f i) (g i)) : Corresponds E Eq (is.mapM f) (is.mapM g) := by
  induction is with
  | nil => exact .ok rfl
  | cons i is ih =>
    rw [List.mapM_cons, List.mapM_cons]
    apply Corresponds.bind (hstep i List.mem_cons_self)
    rintro b _ rfl
    apply Corresponds.bind (ih fun j hj => hstep j (List.mem_cons_of_mem i hj))
    rintro bs _ rfl
    exact .ok rfl

end Results

namespace Logged

variable {ω ω' ε ε' β β' γ γ' : Type} {L : ω → ω' → Prop} {E : ε → ε' → Prop}

structure Parallel (L : ω → ω' → Prop) (E : ε → ε' → Prop) (R : β → β' → Prop) (x : Logged ω ε β)
    (y : Logged ω' ε' β') : Prop where
  log : List.Forall₂ L x.log y.log
  result : Corresponds E R x.result y.result

variable {R : β → β' → Prop} {S : γ → γ' → Prop}

theorem parallel_pure {b : β} {c : β'} (h : R b c) :
    Parallel L E R (pure b : Logged ω ε β) (pure c : Logged ω' ε' β') :=
  ⟨.nil, .ok h⟩

theorem parallel_ofExcept {r : Except ε β} {r' : Except ε' β'} (h : Corresponds E R r r') :
    Parallel L E R (ofExcept r) (ofExcept r') :=
  ⟨.nil, h⟩

theorem parallel_fail {e : ε} {e' : ε'} (h : E e e') :
    Parallel L E R (fail e : Logged ω ε β) (fail e' : Logged ω' ε' β') :=
  ⟨.nil, .error h⟩

theorem Parallel.withValue {L' : ω → Prop} {E' : ε → Prop} {P : β → Prop} {x : Logged ω ε β}
    {y : Logged ω' ε' β'} (h : Parallel L E R x y) (hx : x.Meets L' E' P) :
    Parallel L E (fun b c => R b c ∧ P b) x y where
  log := h.log
  result := h.result.imp fun b _ hb hr => ⟨hr, hx.value b hb⟩

theorem Parallel.bind {x : Logged ω ε β} {y : Logged ω' ε' β'} {f : β → Logged ω ε γ}
    {g : β' → Logged ω' ε' γ'} (hx : Parallel L E R x y)
    (hf : ∀ b c, R b c → Parallel L E S (f b) (g c)) : Parallel L E S (x >>= f) (y >>= g) := by
  obtain ⟨lx, rx⟩ := x
  obtain ⟨ly, ry⟩ := y
  obtain ⟨hlog, hresult⟩ := hx
  dsimp only at hlog hresult
  cases hresult with
  | ok hr =>
    rw [bind_eq_of_ok rfl, bind_eq_of_ok rfl]
    exact ⟨List.rel_append hlog (hf _ _ hr).log, (hf _ _ hr).result⟩
  | error he =>
    rw [bind_eq_of_error rfl, bind_eq_of_error rfl]
    exact ⟨hlog, .error he⟩

theorem parallel_ite {c : Prop} [Decidable c] {x x' : Logged ω ε β} {y y' : Logged ω' ε' β'}
    (ht : Parallel L E R x y) (he : Parallel L E R x' y') :
    Parallel L E R (if c then x else x') (if c then y else y') := by
  split
  . exact ht
  . exact he

theorem parallel_foldlM {ι σ σ' : Type} {R : σ → σ' → Prop} {f : σ → ι → Logged ω ε σ}
    {g : σ' → ι → Logged ω' ε' σ'} {is : List ι}
    (hstep : ∀ i ∈ is, ∀ s s', R s s' → Parallel L E R (f s i) (g s' i)) :
    ∀ s s', R s s' → Parallel L E R (is.foldlM f s) (is.foldlM g s') := by
  induction is with
  | nil =>
    intro s s' h
    exact parallel_pure h
  | cons i is ih =>
    intro s s' h
    rw [List.foldlM_cons, List.foldlM_cons]
    apply Parallel.bind (hstep i List.mem_cons_self s s' h)
    exact ih fun j hj => hstep j (List.mem_cons_of_mem i hj)

theorem Parallel.attempt {E' : ε → ε' → Prop} {x : Logged ω ε β} {y : Logged ω' ε' β'}
    (h : Parallel L E R x y) :
    Parallel L E' (Corresponds E R) (x.attempt : Logged ω ε (Except ε β))
      (y.attempt : Logged ω' ε' (Except ε' β')) :=
  ⟨h.log, .ok h.result⟩

theorem Parallel.listen {x : Logged ω ε β} {y : Logged ω' ε' β'} (h : Parallel L E R x y) :
    Parallel L E (fun b c => R b.1 c.1 ∧ List.Forall₂ L b.2 c.2) x.listen y.listen where
  log := h.log
  result := by
    obtain ⟨lx, rx⟩ := x
    obtain ⟨ly, ry⟩ := y
    obtain ⟨hlog, hresult⟩ := h
    dsimp only at hlog hresult
    cases hresult with
    | ok hr => exact .ok ⟨hr, hlog⟩
    | error he => exact .error he

end Logged

end BoxDescent

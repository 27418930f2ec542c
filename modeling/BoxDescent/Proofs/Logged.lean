import BoxDescent.Event

/-!
This module contains what can be said of a computation that keeps a log: of every entry of the log, of
the error that the computation ends in, and of its value. `Meets.bind` is how such statements compose.
-/

namespace BoxDescent

namespace Logged

variable {ω ε β γ : Type} {L : ω → Prop} {E : ε → Prop}

theorem result_bind_of_ok {x : Logged ω ε β} {b : β} (hx : x.result = .ok b)
    (f : β → Logged ω ε γ) : (x >>= f).result = (f b).result := by
  rw [result_bind, hx]
  rfl

theorem result_bind_of_error {x : Logged ω ε β} {e : ε} (hx : x.result = .error e)
    (f : β → Logged ω ε γ) : (x >>= f).result = .error e := by
  rw [result_bind, hx]
  rfl

theorem bind_eq_of_ok {x : Logged ω ε β} {b : β} (hx : x.result = .ok b) (f : β → Logged ω ε γ) :
    x >>= f = ⟨x.log ++ (f b).log, (f b).result⟩ := by
  show x.bind f = _
  unfold Logged.bind
  rw [hx]

theorem bind_eq_of_error {x : Logged ω ε β} {e : ε} (hx : x.result = .error e) (f : β → Logged ω ε γ) :
    x >>= f = ⟨x.log, .error e⟩ := by
  show x.bind f = _
  unfold Logged.bind
  rw [hx]

theorem bind_congr_of_ok {x : Logged ω ε β} {f g : β → Logged ω ε γ}
    (h : ∀ b, x.result = .ok b → f b = g b) : x >>= f = x >>= g := by
  cases hx : x.result with
  | error e => rw [bind_eq_of_error hx, bind_eq_of_error hx]
  | ok b => rw [bind_eq_of_ok hx, bind_eq_of_ok hx, h b hx]

theorem bind_eq_attempt_bind {δ : Type} {x : Logged ω ε β} {f : β → Logged ω ε γ} {g : β → Logged ω ε δ}
    {k : Except ε γ → Logged ω ε δ} (hx : ∀ e, x.result ≠ .error e)
    (h : ∀ b, x.result = .ok b → g b = (f b).attempt >>= k) : x >>= g = (x >>= f).attempt >>= k := by
  cases hr : x.result with
  | error e => exact absurd hr (hx e)
  | ok b =>
    have hattempt : (x >>= f).attempt = x >>= fun b => ((f b).attempt : Logged ω ε _) := by
      unfold attempt
      rw [bind_eq_of_ok hr, bind_eq_of_ok hr]
    rw [hattempt, bind_assoc]
    apply bind_congr_of_ok
    intro b hb
    exact h b hb

theorem attempt_bind {ε' : Type} (x : Logged ω ε β) (f : β → Logged ω ε γ) :
    ((x >>= f).attempt : Logged ω ε' _) = x.attempt >>= fun
      | .ok b => (f b).attempt
      | .error e => pure (.error e) := by
  cases hr : x.result with
  | error e =>
    unfold attempt
    rw [bind_eq_of_error hr, hr]
    rw [bind_eq_of_ok (b := Except.error e) rfl]
    simp
  | ok b =>
    unfold attempt
    rw [bind_eq_of_ok hr, hr]
    rw [bind_eq_of_ok (b := Except.ok b) rfl]

theorem attempt_bind_eq_attempt_bind {δ : Type} {x : Logged ω ε β} {f : β → Logged ω ε γ}
    {g : Except ε β → Logged ω ε δ} {k : Except ε γ → Logged ω ε δ}
    (hok : ∀ b, x.result = .ok b → g (.ok b) = (f b).attempt >>= k)
    (herror : ∀ e, g (.error e) = k (.error e)) : x.attempt >>= g = (x >>= f).attempt >>= k := by
  rw [attempt_bind, bind_assoc]
  apply bind_congr_of_ok
  intro r hr
  rw [show (x.attempt : Logged ω ε _).result = .ok x.result from rfl, Except.ok.injEq] at hr
  cases r with
  | error e =>
    rw [pure_bind]
    exact herror e
  | ok b => exact hok b hr

theorem exists_of_bind_ok {x : Logged ω ε β} {f : β → Logged ω ε γ} {c : γ}
    (h : (x >>= f).result = .ok c) : ∃ b, x.result = .ok b ∧ (f b).result = .ok c := by
  rw [result_bind] at h
  cases hx : x.result with
  | error e =>
    rw [hx] at h
    cases h
  | ok b =>
    rw [hx] at h
    exact ⟨b, rfl, h⟩

/-- All entries of the log satisfy `L`, an error satisfies `E` and a value satisfies `Q`. -/
structure Meets (x : Logged ω ε β) (L : ω → Prop) (E : ε → Prop) (Q : β → Prop) : Prop where
  log : ∀ e ∈ x.log, L e
  error : ∀ e, x.result = .error e → E e
  value : ∀ b, x.result = .ok b → Q b

theorem meets_pure {Q : β → Prop} {b : β} (h : Q b) : (pure b : Logged ω ε β).Meets L E Q where
  log := by simp
  error := by simp
  value := by
    intro c hc
    simp only [result_pure, Except.ok.injEq] at hc
    rw [← hc]
    exact h

theorem meets_fail {Q : β → Prop} {e : ε} (h : E e) : (fail e : Logged ω ε β).Meets L E Q where
  log := by simp
  error := by
    intro e' he
    simp only [result_fail, Except.error.injEq] at he
    rw [← he]
    exact h
  value := by simp

theorem meets_write {Q : Unit → Prop} {entry : ω} (hl : L entry) (h : Q ()) :
    (write entry : Logged ω ε Unit).Meets L E Q where
  log := by simpa using hl
  error := by simp
  value := fun _ _ => h

theorem meets_ofExcept {Q : β → Prop} {r : Except ε β} (he : ∀ e, r = .error e → E e)
    (hv : ∀ b, r = .ok b → Q b) : (ofExcept r : Logged ω ε β).Meets L E Q where
  log := by simp
  error := he
  value := hv

theorem meets_ofExcept_ok {b : β} : (ofExcept (.ok b) : Logged ω ε β).Meets L E (· = b) where
  log := by simp
  error := by
    intro e he
    rw [result_ofExcept] at he
    cases he
  value := by
    intro c hc
    rw [result_ofExcept, Except.ok.injEq] at hc
    exact hc.symm

theorem meets_ok {log : List ω} {Q : β → Prop} {b : β} (hlog : ∀ e ∈ log, L e) (h : Q b) :
    (⟨log, .ok b⟩ : Logged ω ε β).Meets L E Q where
  log := hlog
  error := by
    intro e he
    cases he
  value := by
    intro c hc
    cases hc
    exact h

theorem Meets.bind {P : β → Prop} {Q : γ → Prop} {x : Logged ω ε β} {f : β → Logged ω ε γ}
    (hx : x.Meets L E P) (hf : ∀ b, P b → (f b).Meets L E Q) : (x >>= f).Meets L E Q := by
  cases hr : x.result with
  | error e =>
    constructor
    . intro e' he
      rw [log_bind, hr] at he
      simp only [List.append_nil] at he
      exact hx.log e' he
    . intro e' he
      rw [result_bind, hr] at he
      cases he
      exact hx.error e hr
    . intro c hc
      rw [result_bind, hr] at hc
      cases hc
  | ok b =>
    have hb := hf b (hx.value b hr)
    constructor
    . intro e he
      rw [log_bind, hr] at he
      cases List.mem_append.mp he with
      | inl he => exact hx.log e he
      | inr he => exact hb.log e he
    . intro e he
      rw [result_bind, hr] at he
      exact hb.error e he
    . intro c hc
      rw [result_bind, hr] at hc
      exact hb.value c hc

theorem Meets.mono {L' : ω → Prop} {E' : ε → Prop} {P Q : β → Prop} {x : Logged ω ε β}
    (hx : x.Meets L E P) (hl : ∀ e, L e → L' e) (he : ∀ e, E e → E' e) (hq : ∀ b, P b → Q b) :
    x.Meets L' E' Q where
  log := fun e h => hl e (hx.log e h)
  error := fun e h => he e (hx.error e h)
  value := fun b h => hq b (hx.value b h)

theorem Meets.imp {P Q : β → Prop} {x : Logged ω ε β} (hx : x.Meets L E P) (h : ∀ b, P b → Q b) :
    x.Meets L E Q :=
  hx.mono (fun _ h => h) (fun _ h => h) h

theorem Meets.withValue {L' : ω → Prop} {E' : ε → Prop} {P Q : β → Prop} {x : Logged ω ε β}
    (hx : x.Meets L E P) (hy : x.Meets L' E' Q) : x.Meets L E (fun b => P b ∧ Q b) where
  log := hx.log
  error := hx.error
  value := fun b h => ⟨hx.value b h, hy.value b h⟩

theorem meets_self (x : Logged ω ε β) :
    x.Meets (fun _ => True) (fun _ => True) fun b => x.result = .ok b :=
  ⟨fun _ _ => trivial, fun _ _ => trivial, fun _ h => h⟩

theorem Meets.attempt {E' : ε → Prop} {Q : β → Prop} {x : Logged ω ε β} (hx : x.Meets L E Q) :
    (x.attempt : Logged ω ε (Except ε β)).Meets L E'
      (fun r => (∀ b, r = .ok b → Q b) ∧ ∀ e, r = .error e → E e) where
  log := hx.log
  error := by
    intro e he
    simp [Logged.attempt] at he
  value := by
    intro r hr
    simp only [Logged.attempt, Except.ok.injEq] at hr
    rw [← hr]
    exact ⟨hx.value, hx.error⟩

theorem Meets.listen {Q : β → Prop} {x : Logged ω ε β} (hx : x.Meets L E Q) :
    x.listen.Meets L E (fun r => Q r.1) where
  log := hx.log
  error := by
    intro e he
    cases hr : x.result with
    | error e' =>
      simp only [Logged.listen, hr, Except.map, Except.error.injEq] at he
      rw [← he]
      exact hx.error e' hr
    | ok b => simp [Logged.listen, hr, Except.map] at he
  value := by
    intro p hp
    cases hr : x.result with
    | error e => simp [Logged.listen, hr, Except.map] at hp
    | ok b =>
      simp only [Logged.listen, hr, Except.map, Except.ok.injEq] at hp
      rw [← hp]
      exact hx.value b hr

theorem meets_foldlM {ι σ : Type} {f : σ → ι → Logged ω ε σ} (I : List ι → σ → Prop) (todo : List ι) :
    ∀ (done : List ι) (s : σ), I done s →
      (∀ (before : List ι) (i : ι) (after : List ι) (s : σ),
        done ++ todo = before ++ i :: after → I before s →
          (f s i).Meets L E (I (before ++ [i]))) →
      (todo.foldlM f s).Meets L E (I (done ++ todo)) := by
  induction todo with
  | nil =>
    intro done s hs _
    rw [List.append_nil, List.foldlM_nil]
    exact meets_pure hs
  | cons i todo ih =>
    intro done s hs step
    rw [List.foldlM_cons]
    -- The element moves from the list ahead to the list behind.
    apply Meets.bind (step done i todo s rfl hs)
    intro s' hs'
    have hcons : done ++ i :: todo = (done ++ [i]) ++ todo := by simp
    rw [hcons]
    apply ih (done ++ [i]) s' hs'
    intro before j after t ht
    exact step before j after t (hcons.trans ht)

end Logged

section

variable {α : Type} {n : Nat} {L : Event α n → Prop} {E : Error α → Prop}

theorem result_note_bind {β : Type} (m : Note α) (f : Unit → Run α n β) :
    (note m >>= f).result = (f ()).result :=
  Logged.result_bind_of_ok rfl f

theorem note_bind_eq {β : Type} (m : Note α) (f : Unit → Run α n β) :
    note m >>= f = ⟨.note m :: (f ()).log, (f ()).result⟩ :=
  Logged.bind_eq_of_ok rfl f

theorem meets_note {Q : Unit → Prop} {m : Note α} (hl : L (.note m)) (h : Q ()) :
    (note m : Run α n Unit).Meets L E Q :=
  Logged.meets_write hl h

theorem meets_note_bind {β : Type} {Q : β → Prop} {m : Note α} {f : Unit → Run α n β}
    (hl : L (.note m)) (h : (f ()).Meets L E Q) : (note m >>= f).Meets L E Q :=
  Logged.Meets.bind (meets_note (Q := fun _ => True) hl trivial) fun _ _ => h

end

end BoxDescent

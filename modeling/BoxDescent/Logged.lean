/-!
This module contains computations that keep a log and may fail. The log survives a failure, and it never
influences the result: `result_bind` says that results compose as if there were no log, `log_bind` that
the logs are joined in order.
-/

namespace BoxDescent

structure Logged (ω ε β : Type) where
  log : List ω
  result : Except ε β

namespace Logged

variable {ω ε β γ : Type}

protected def pure (b : β) : Logged ω ε β := ⟨[], .ok b⟩

protected def bind (x : Logged ω ε β) (f : β → Logged ω ε γ) : Logged ω ε γ :=
  match x.result with
  | .ok b =>
    let y := f b
    ⟨x.log ++ y.log, y.result⟩
  | .error e => ⟨x.log, .error e⟩

instance : Monad (Logged ω ε) where
  pure := Logged.pure
  bind := Logged.bind

def write (entry : ω) : Logged ω ε Unit := ⟨[entry], .ok ()⟩

def ofExcept (r : Except ε β) : Logged ω ε β := ⟨[], r⟩

def fail (e : ε) : Logged ω ε β := ⟨[], .error e⟩

/-- Hands out the result, whether a value or an error, as a value. -/
def attempt {ε' : Type} (x : Logged ω ε β) : Logged ω ε' (Except ε β) :=
  ⟨x.log, .ok x.result⟩

def listen (x : Logged ω ε β) : Logged ω ε (β × List ω) :=
  ⟨x.log, x.result.map (·, x.log)⟩

@[simp]
theorem log_pure (b : β) : (pure b : Logged ω ε β).log = [] := rfl

@[simp]
theorem result_pure (b : β) : (pure b : Logged ω ε β).result = .ok b := rfl

@[simp]
theorem log_ofExcept (r : Except ε β) : (ofExcept r : Logged ω ε β).log = [] := rfl

@[simp]
theorem result_ofExcept (r : Except ε β) : (ofExcept r : Logged ω ε β).result = r := rfl

@[simp]
theorem log_write (entry : ω) : (write entry : Logged ω ε Unit).log = [entry] := rfl

@[simp]
theorem result_write (entry : ω) : (write entry : Logged ω ε Unit).result = .ok () := rfl

@[simp]
theorem log_fail (e : ε) : (fail e : Logged ω ε β).log = [] := rfl

@[simp]
theorem result_fail (e : ε) : (fail e : Logged ω ε β).result = .error e := rfl

theorem result_bind (x : Logged ω ε β) (f : β → Logged ω ε γ) :
    (x >>= f).result = x.result.bind fun b => (f b).result := by
  show (x.bind f).result = _
  unfold Logged.bind
  cases x.result <;> rfl

theorem log_bind (x : Logged ω ε β) (f : β → Logged ω ε γ) :
    (x >>= f).log = x.log ++ match x.result with
      | .ok b => (f b).log
      | .error _ => [] := by
  show (x.bind f).log = _
  unfold Logged.bind
  cases x.result <;> simp

private theorem bind_pure_eq (x : Logged ω ε β) : x.bind Logged.pure = x := by
  obtain ⟨l, r⟩ := x
  cases r <;> simp [Logged.bind, Logged.pure]

private theorem bind_bind_eq {δ : Type} (x : Logged ω ε β) (f : β → Logged ω ε γ)
    (g : γ → Logged ω ε δ) : (x.bind f).bind g = x.bind fun b => (f b).bind g := by
  obtain ⟨l, r⟩ := x
  cases r with
  | error => rfl
  | ok b => cases h : (f b).result <;> simp [Logged.bind, h]

instance : LawfulMonad (Logged ω ε) :=
  LawfulMonad.mk' _ bind_pure_eq (fun _ _ => rfl) bind_bind_eq

end Logged

end BoxDescent

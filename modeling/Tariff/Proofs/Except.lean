import Mathlib.Control.Monad.Basic

/-!
# Steps that may fail

When a sequence of steps that may fail gives a result.
-/

namespace Tariff.Except

variable {ε ε' α β : Type}

/-- A sequence of two steps gives a result when both do. -/
theorem bind_eq_ok {x : Except ε α} {f : α → Except ε β} {b : β} :
  (x >>= f) = .ok b ↔ ∃ a, x = .ok a ∧ f a = .ok b
  := by
  cases x <;> simp [bind, Except.bind]

/-- A sequence of two steps fails when one of them does. -/
theorem bind_eq_error {x : Except ε α} {f : α → Except ε β} {e : ε} :
  (x >>= f) = .error e ↔ x = .error e ∨ ∃ a, x = .ok a ∧ f a = .error e
  := by
  cases x <;> simp [bind, Except.bind]

/-- A finished step gives its value. -/
theorem pure_eq_ok {a b : α} :
  (pure a : Except ε α) = .ok b ↔ a = b
  := by
  simp [pure, Except.pure]

/-- A thrown fault is no result. -/
theorem throw_ne_ok {e : ε} {a : α} :
  (throw e : Except ε α) ≠ .ok a
  := by
  simp [throw, throwThe, MonadExceptOf.throw]

/-- A result stays when errors are turned into others. -/
theorem mapError_ok {f : ε → ε'} {a : α} :
  (Except.ok a).mapError f = .ok a
  := rfl

/-- Errors are turned into errors. -/
theorem mapError_eq_ok {x : Except ε α} {f : ε → ε'} {a : α} :
  x.mapError f = .ok a ↔ x = .ok a
  := by
  constructor
  · intro eq
    cases x <;> cases eq
    rfl
  · intro eq
    cases eq
    rfl

/-- An error comes from the error that has been turned into it. -/
theorem mapError_eq_error {x : Except ε α} {f : ε → ε'} {e : ε'} :
  x.mapError f = .error e ↔ ∃ e', x = .error e' ∧ f e' = e
  := by
  cases x <;> simp [Except.mapError]

/-- A result that a function is applied to succeeds when it does. -/
theorem map_eq_ok {x : Except ε α} {f : α → β} {b : β} :
  x.map f = .ok b ↔ ∃ a, x = .ok a ∧ f a = b
  := by
  cases x with
  | error e => exact ⟨nofun, nofun⟩
  | ok a => exact ⟨fun eq => ⟨a, rfl, Except.ok.inj eq⟩, fun ⟨_, rfl, eq⟩ => congrArg _ eq⟩

/-- A step succeeds with what it gives. -/
theorem toOption_eq_some {x : Except ε α} {a : α} :
  x.toOption = some a ↔ x = .ok a
  := by
  cases x <;> simp [Except.toOption]

/-- Two functions applied to a result one after the other are one function applied to it. -/
theorem map_comp_map {γ : Type} (g : β → γ) (f : α → β) :
  (Except.map g ∘ Except.map f : Except ε α → Except ε γ) = Except.map (g ∘ f)
  := by
  funext x
  cases x <;> rfl

end Tariff.Except

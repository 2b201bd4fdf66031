import Mathlib.Logic.Basic

/-!
# Early returns

`Except` blocks taken apart: an early return that did not happen leaves a value behind and the rest
of the block to look at.
-/

namespace VirtioMem.Result

variable {ε ε' α β : Type}

/-- The value, or this error where there is none. -/
def okOr (value : Option α) (error : ε) : Except ε α :=
  match value with
  | some value => .ok value
  | none => .error error

theorem bind_eq_ok {x : Except ε α} {f : α → Except ε β} {b : β} :
    (x >>= f) = .ok b ↔ ∃ a, x = .ok a ∧ f a = .ok b := by
  cases x with
  | error error => simp [bind, Except.bind]
  | ok a => simp [bind, Except.bind]

theorem bind_isOk {x : Except ε α} {f : α → Except ε β} :
    (∃ b, (x >>= f) = .ok b) ↔ ∃ a, x = .ok a ∧ ∃ b, f a = .ok b := by
  simp only [bind_eq_ok]
  exact ⟨fun ⟨b, a, hx, hf⟩ => ⟨a, hx, b, hf⟩, fun ⟨a, hx, b, hf⟩ => ⟨b, a, hx, hf⟩⟩

theorem bind_eq_error {x : Except ε α} {f : α → Except ε β} {error : ε} :
    (x >>= f) = .error error ↔ x = .error error ∨ ∃ a, x = .ok a ∧ f a = .error error := by
  cases x with
  | error error => simp [bind, Except.bind]
  | ok a => simp [bind, Except.bind]

theorem mapError_eq_ok {x : Except ε α} {f : ε → ε'} {a : α} :
    x.mapError f = .ok a ↔ x = .ok a := by
  cases x with
  | error error => exact ⟨nofun, nofun⟩
  | ok value => exact ⟨fun h => (by cases h; rfl), fun h => (by cases h; rfl)⟩

@[simp] theorem okOr_eq_ok {value : Option α} {error : ε} {a : α} :
    okOr value error = .ok a ↔ value = some a := by
  cases value <;> simp [okOr]

@[simp] theorem okOr_eq_error {value : Option α} {error error' : ε} :
    okOr value error = .error error' ↔ value = none ∧ error = error' := by
  cases value <;> simp [okOr]

/-- A computation that cannot fail has a value. -/
theorem exists_ok {x : Except ε α} (h : ∀ error, x ≠ .error error) : ∃ a, x = .ok a := by
  cases x with
  | error error => exact absurd rfl (h error)
  | ok a => exact ⟨a, rfl⟩

end VirtioMem.Result

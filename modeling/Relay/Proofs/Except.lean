/-!
# Computations that may fail

When a computation with a step before it or behind it succeeds, and when it fails.
-/

namespace Relay

universe u v w

variable {ε : Type u} {α : Type v} {x : Except ε α}

theorem map_eq_ok_iff {β : Type w} {f : α → β} {b : β} :
    x.map f = .ok b ↔ ∃ a, x = .ok a ∧ f a = b := by
  cases x <;> simp [Except.map]

theorem map_eq_error_iff {β : Type w} {f : α → β} {e : ε} : x.map f = .error e ↔ x = .error e := by
  cases x <;> simp [Except.map]

theorem bind_eq_ok {β : Type v} {f : α → Except ε β} {b : β} :
    (x >>= f) = .ok b ↔ ∃ a, x = .ok a ∧ f a = .ok b := by
  cases x with
  | error e => exact ⟨nofun, nofun⟩
  | ok a =>
    refine ⟨fun h => ⟨a, rfl, h⟩, ?_⟩
    rintro ⟨a', hsame, h⟩
    cases hsame
    exact h

end Relay

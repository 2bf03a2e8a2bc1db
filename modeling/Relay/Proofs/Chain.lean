import Relay.Chain

/-!
# Chains put end to end

`Chain.append` runs a second chain on what a first one gives. A run sets up a chain stage by stage
from the front, so that what is wired and what is left are two chains put end to end:
`snoc_append` moves the next stage from one to the other, and `eval_append` says what this does to
values.
-/

namespace Relay

namespace Chain

variable {α β γ δ : Type}

/-- The stages of one chain, then those of another. -/
def append {α β γ : Type} : Chain α β → Chain β γ → Chain α γ
  | .nil, d => d
  | .cons s rest, d => .cons s (rest.append d)

@[simp] theorem append_nil (c : Chain α β) : c.append .nil = c := by
  induction c with
  | nil => rfl
  | cons s rest ih => rw [append, ih]

theorem snoc_append (c : Chain α β) (s : Stage β γ) (d : Chain γ δ) :
    (c.snoc s).append d = c.append (.cons s d) := by
  induction c with
  | nil => rfl
  | cons t rest ih => rw [snoc, append, append, ih]

theorem names_append (c : Chain α β) (d : Chain β γ) :
    (c.append d).names = c.names ++ d.names := by
  induction c with
  | nil => rfl
  | cons s rest ih => rw [append, names, ih]; rfl

theorem length_append (c : Chain α β) (d : Chain β γ) :
    (c.append d).length = c.length + d.length := by
  rw [← length_names, names_append, List.length_append, length_names, length_names]

theorem eval_append (t : String → String) (c : Chain α β) (d : Chain β γ) (a : α) :
    (c.append d).eval t a = (c.eval t a).bind (d.eval t) := by
  induction c with
  | nil => rfl
  | cons s rest ih =>
    simp only [append, eval]
    cases s.body (t s.name) a with
    | none => rfl
    | some b => exact ih d b

theorem length_snoc (c : Chain α β) (s : Stage β γ) : (c.snoc s).length = c.length + 1 := by
  rw [← append_nil (c.snoc s), snoc_append, length_append]; rfl

/-- One more stage works what the stages before it give, unless one of them panicked. -/
theorem eval_snoc (t : String → String) (c : Chain α β) (s : Stage β γ) (a : α) :
    (c.snoc s).eval t a = (c.eval t a).bind fun b =>
      match s.body (t s.name) b with
      | some v => .ok v
      | none => .error s.name := by
  rw [← append_nil (c.snoc s), snoc_append, eval_append]; rfl

end Chain

end Relay

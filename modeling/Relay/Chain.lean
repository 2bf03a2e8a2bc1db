import Relay.Stage
import Relay.Tuning

/-!
# Pipelines

A chain is a sequence of stages in which each takes what the one before gives. A pipeline is a
chain and the tuning it runs with; it starts without stages, and stages and options are added in
any order.
-/

namespace Relay

/-- A sequence of stages from `α` to `β`. -/
inductive Chain : Type → Type → Type 1 where
  | nil {α : Type} : Chain α α
  | cons {α β γ : Type} (s : Stage α β) (rest : Chain β γ) : Chain α γ

namespace Chain

/-- The number of stages. -/
def length {α β : Type} : Chain α β → Nat
  | .nil => 0
  | .cons _ rest => rest.length + 1

/-- The names of the stages. -/
def names {α β : Type} : Chain α β → List String
  | .nil => []
  | .cons s rest => s.name :: rest.names

/-- The chain with one more stage at its end. -/
def snoc {α β γ : Type} : Chain α β → Stage β γ → Chain α γ
  | .nil, s => .cons s .nil
  | .cons t rest, s => .cons t (rest.snoc s)

/-- What the chain makes of a value, and the name of the first stage that panics if one does.
`threadName` names the thread of each stage. -/
def eval {α β : Type} (threadName : String → String) : Chain α β → α → Except String β
  | .nil, a => .ok a
  | .cons s rest, a =>
    match s.body (threadName s.name) a with
    | some b => rest.eval threadName b
    | none => .error s.name

theorem names_snoc {α β γ : Type} (c : Chain α β) (s : Stage β γ) :
    (c.snoc s).names = c.names ++ [s.name] := by
  induction c with
  | nil => rfl
  | cons t rest ih => simp [snoc, names, ih]

theorem length_names {α β : Type} (c : Chain α β) : c.names.length = c.length := by
  induction c with
  | nil => rfl
  | cons s rest ih => simp [names, length, ih]

end Chain

/-- A chain of stages and how it is run. -/
structure Pipeline (α β : Type) where
  chain : Chain α β
  tuning : Tuning := {}

namespace Pipeline

variable {α β γ : Type}

/-- The pipeline without stages, which gives back what it is given. -/
def new : Pipeline α α := { chain := .nil }

/-- The pipeline with one more stage at its end. -/
def stage (p : Pipeline α β) (s : Stage β γ) : Pipeline α γ :=
  { chain := p.chain.snoc s, tuning := p.tuning }

/-- The pipeline with other options, or the fault that they are of no use. -/
def withOptions (p : Pipeline α β) (o : PipelineOptions) : Except Fault (Pipeline α β) :=
  match Tuning.ofOptions? o with
  | .ok tuning => .ok { p with tuning }
  | .error fault => .error fault

/-- The names of the stages, in order. -/
def stageNames (p : Pipeline α β) : List String := p.chain.names

/-- The number of stages. -/
def length (p : Pipeline α β) : Nat := p.chain.length

/-- Whether there are no stages. -/
def isEmpty (p : Pipeline α β) : Bool := p.length = 0

end Pipeline

end Relay

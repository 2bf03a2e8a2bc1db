import Relay.Channel
import Relay.Event

/-!
# Stages and their threads

A stage is a named function from the value it receives to the value it sends. Its thread works
one value and then exits: it receives, applies the function, sends the result and leaves, which
closes both of its channel ends. It leaves without sending if no value comes, and panics if the
function does. `Worker` says how far a thread is, and its operations are the steps that take it
further.
-/

namespace Relay

/-- A named function. It may ask for the name of the thread that it runs on, and it gives nothing
when it panics. -/
structure Stage (α β : Type) where
  name : String
  body : String → α → Option β

/-- A stage whose function never panics and does not ask where it runs. -/
def Stage.pure {α β : Type} (name : String) (f : α → β) : Stage α β :=
  ⟨name, fun _ a => some (f a)⟩

/-- How far the thread of a stage is. -/
inductive Worker (α β : Type) where
  /-- Waits for its value. -/
  | waiting
  /-- Holds its value, and is to apply the function. -/
  | holding (a : α)
  /-- Holds its result, and is to send it. -/
  | sending (b : β)
  /-- Is to close its channel ends. -/
  | leaving (panicked : Bool)
  /-- Runs no more. -/
  | exited (panicked : Bool)
  deriving DecidableEq, Repr

namespace Worker

variable {α β : Type}

/-- How the thread ended, if it has. -/
def exit? : Worker α β → Option Bool
  | .exited panicked => some panicked
  | _ => none

/-- The steps that the thread takes at most. -/
def stepsLeft : Worker α β → Nat
  | .waiting => 4
  | .holding _ => 3
  | .sending _ => 2
  | .leaving _ => 1
  | .exited _ => 0

/-- The thread after it received from `source`, with what is left of the channel and what it
reports. Nothing happens while it is blocked. -/
def receive (source : Channel α) : Option (Worker α β × Channel α × StageNote) :=
  match source.receive with
  | .done (a, source) => some (.holding a, source, .received)
  | .blocked => none
  | .closed => some (.leaving false, source, .upstreamClosed)

/-- The thread after it applied the function of its stage. -/
def compute (s : Stage α β) (thread : String) (a : α) : Worker α β :=
  match s.body thread a with
  | some b => .sending b
  | none => .leaving true

/-- The thread after it sent its result, with the channel and what it reports. Nothing happens
while it is blocked. -/
def deliver (b : β) (target : Channel β) : Option (Worker α β × Channel β × StageNote) :=
  match target.send b with
  | .done target => some (.leaving false, target, .sent)
  | .blocked => none
  | .closed => some (.leaving false, target, .downstreamClosed)

end Worker

end Relay

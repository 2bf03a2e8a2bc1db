import Relay.Decimal

/-!
# Faults of the runtime

What can go wrong with channels, stage threads and whole runs, and the text of each fault. A
refusal that belongs to the domain is never a fault; it travels as an arm of a stage's result.
-/

namespace Relay

/-- The greatest capacity of a channel. -/
def maxCapacity : Nat := 65536

/-- What went wrong in the runtime. -/
inductive Fault where
  /-- The thread of a stage could not be started; the cause is what the system said of it. -/
  | spawn (stage : String) (cause : Option String)
  /-- The thread of a stage panicked. -/
  | stagePanicked (stage : String)
  /-- The other end of a hand-off was gone before a value was exchanged. -/
  | disconnected (stage : String)
  /-- A channel was disposed a second time. -/
  | doubleDispose (channel : Nat)
  /-- A channel was to be disposed while stage threads were live. -/
  | disposeWhileInUse (channel live : Nat)
  /-- A channel was to have a capacity that no channel has. -/
  | invalidCapacity (capacity : Nat)
  deriving DecidableEq, Repr

namespace Fault

/-- The text of a fault. -/
def message : Fault → String
  | .spawn stage _ => s!"failed to spawn thread for stage `{stage}`"
  | .stagePanicked stage => s!"stage `{stage}` panicked"
  | .disconnected stage => s!"hand-off at stage `{stage}` disconnected before a value was exchanged"
  | .doubleDispose channel => s!"channel #{channel} disposed twice"
  | .disposeWhileInUse channel live =>
    s!"channel #{channel} disposed while {live} stage thread(s) may still use it"
  | .invalidCapacity capacity =>
    s!"invalid channel capacity {capacity} (expected 1..={maxCapacity})"

/-- The text of a fault, followed by that of its cause if it has one. -/
def chain : Fault → List String
  | .spawn stage cause => (Fault.spawn stage cause).message :: cause.toList
  | f => [f.message]

end Fault

/-- Why a run failed: a fault, and what the run was doing, outermost first. -/
structure RunError where
  context : List String
  fault : Fault
  deriving DecidableEq, Repr

/-- The texts of a run error, from the outermost context to the cause. -/
def RunError.chain (e : RunError) : List String :=
  e.context ++ e.fault.chain

/-- What joining the thread of `stage` gives: its result, or the fault that it panicked. -/
def checkJoin {α : Type} (stage : String) : Option α → Except Fault α
  | some a => .ok a
  | none => .error (.stagePanicked stage)

end Relay

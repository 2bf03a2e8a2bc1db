import Relay.Event

/-!
# What a log tells of channels and threads

The views of an event that the theorems on logs are stated with: the channel that was created,
disposed or given up without being disposed, and the stage whose thread was started or joined.
-/

namespace Relay.Event

/-- The channel that was created. -/
def created? : Event → Option Nat
  | .created channel _ => some channel
  | _ => none

/-- The channel that was disposed. -/
def disposed? : Event → Option Nat
  | .disposed channel => some channel
  | _ => none

/-- The channel whose record was dropped while threads were live, and so will not be disposed. -/
def lost? : Event → Option Nat
  | .warning (.disposeWhileInUse channel _) => some channel
  | _ => none

/-- The channel that nobody has to release any more. -/
def released? (e : Event) : Option Nat :=
  e.disposed?.or e.lost?

/-- The stage whose thread was started. -/
def spawned? : Event → Option String
  | .spawned stage => some stage
  | _ => none

/-- The stage whose thread was joined. -/
def joined? : Event → Option String
  | .joined stage => some stage
  | _ => none

/-- The ledger that is logged when a value is returned. -/
def finished? : Event → Option Ledger
  | .finished ledger => some ledger
  | _ => none

end Relay.Event

import Relay.Fault
import Relay.Ledger

/-!
# The log

What the runtime reports while it works, each event with its level and its text.
-/

namespace Relay

/-- How much an event matters. -/
inductive Level where
  | trace
  | debug
  | warn
  deriving DecidableEq, Repr

/-- The level in capitals. -/
def Level.label : Level → String
  | .trace => "TRACE"
  | .debug => "DEBUG"
  | .warn => "WARN"

/-- What the body of a stage reports of itself. -/
inductive StageNote where
  | received
  | sent
  /-- No value came, because the sender was gone. -/
  | upstreamClosed
  /-- The result could not be handed on, because the receiver was gone. -/
  | downstreamClosed
  deriving DecidableEq, Repr

/-- What the runtime reports. -/
inductive Event where
  | created (channel capacity : Nat)
  | disposed (channel : Nat)
  | spawned (stage : String)
  | joined (stage : String)
  | wired (threads channels : Nat)
  | finished (ledger : Ledger)
  | inStage (index : Nat) (name : String) (note : StageNote)
  | sorting (count : Nat)
  | running (stages : List String) (capacity : Nat)
  /-- A fault that came up where nothing could be returned. -/
  | warning (fault : Fault)
  deriving DecidableEq, Repr

/-- Stage names with arrows between them. -/
def arrows (names : List String) : String :=
  " -> ".intercalate names

/-- The text of what a stage reports. -/
def StageNote.text : StageNote → String
  | .received => "received"
  | .sent => "sent"
  | .upstreamClosed => "upstream closed, exiting"
  | .downstreamClosed => "downstream closed, result dropped"

namespace Event

/-- The level of an event. -/
def level : Event → Level
  | .inStage _ _ .received | .inStage _ _ .sent => .trace
  | .warning _ => .warn
  | _ => .debug

/-- The text of an event. -/
def text : Event → String
  | .created channel capacity => s!"channel #{channel} created (capacity {capacity})"
  | .disposed channel => s!"channel #{channel} disposed"
  | .spawned stage => s!"spawned stage `{stage}`"
  | .joined stage => s!"joined stage `{stage}`"
  | .wired threads channels =>
    s!"pipeline wired: {threads} stage thread(s), {channels} channel(s)"
  | .finished ledger => "pipeline finished: " ++ ledger.describe
  | .inStage index name note => s!"stage {index} `{name}`: " ++ note.text
  | .sorting count => s!"Sorting {count} values"
  | .running stages capacity =>
    "Running [" ++ arrows stages ++ s!"] with channel capacity {capacity}"
  | .warning fault => fault.message

/-- The level and the text of an event. -/
def line (e : Event) : String :=
  e.level.label ++ " " ++ e.text

end Event

end Relay

import Relay.Event

/-!
# Crews

A crew holds the handles of the stage threads that it started, in the order in which it started
them, and joins every one of them once. Joining goes through all handles even if threads panicked,
and tells of the first of those in that order, whichever panicked first in time.
-/

namespace Relay

/-- A thread that was started and not joined: the stage it runs, and its number. -/
structure Handle where
  stage : String
  thread : Nat
  deriving DecidableEq, Repr

/-- The fault to tell of after one more thread was joined: the first one counts. -/
def Handle.outcome (h : Handle) (panicked : Bool) (first : Option Fault) : Option Fault :=
  match first, checkJoin h.stage (if panicked then none else some ()) with
  | some fault, _ => some fault
  | none, .error fault => some fault
  | none, .ok () => none

/-- Joins the thread of a handle, which has exited: the fault to tell of, the ledger that counts
the join, and the event. -/
def Handle.join (h : Handle) (panicked : Bool) (first : Option Fault) (l : Ledger) :
    Option Fault × Ledger × Event :=
  (h.outcome panicked first, l.bump .threadsJoined, .joined h.stage)

/-- Joins all threads of some handles after a first fault that may have come up before;
`panicked` tells how each thread exited. -/
def joinFrom (panicked : Nat → Bool) : Option Fault → List Handle → Ledger →
    Option Fault × Ledger × List Event
  | fault, [], l => (fault, l, [])
  | fault, h :: rest, l =>
    let (fault, l, event) := h.join (panicked h.thread) fault l
    let (fault, l, events) := joinFrom panicked fault rest l
    (fault, l, event :: events)

/-- Joins all threads of a crew: the first fault, the ledger and the events. -/
def joinAll (panicked : Nat → Bool) (crew : List Handle) (l : Ledger) :
    Option Fault × Ledger × List Event :=
  joinFrom panicked none crew l

/-- Drops a crew: joins what is left and warns of the first fault. -/
def dropCrew (panicked : Nat → Bool) (crew : List Handle) (l : Ledger) : Ledger × List Event :=
  let (fault, l, events) := joinAll panicked crew l
  (l, events ++ (fault.map .warning).toList)

end Relay

import Relay.Crew
import Relay.Directory
import Relay.Payload.Pipeline
import Relay.Record

/-!
# Sessions

A session holds channels, channel ends, records, record sets and crews by name and works on them
from one thread, while the threads of its crews run beside it. `Session.settle` lets those threads
go on until each of them has exited or is blocked; it is done after every action, so an action
finds the channels as the threads leave them.
-/

namespace Relay

/-- A thread that a crew started: the function it applies, the channels that it receives from and
sends to, and how far it is. Without a target it exits as soon as it has received. -/
structure Task where
  stage : Stage Payload Payload
  /-- The place that the stage reports. -/
  index : Nat
  /-- The name of the thread. -/
  thread : String
  source : Option Nat
  target : Option Nat
  worker : Worker Payload Payload

/-- A channel with both of its ends and its record. -/
structure Whole where
  channel : Nat
  filed : Filed String

/-- The threads of a crew, how it starts them, and the ledger that counts them. -/
structure Crew where
  handles : List Handle := []
  tuning : Tuning
  ledger : String

/-- Channels, channel ends, records and crews by name. -/
structure Session where
  books : Books String := []
  /-- All channels so far. -/
  channels : Array (Channel Payload) := #[]
  /-- All threads so far. -/
  tasks : Array Task := #[]
  wholes : Directory Whole := []
  senders : Directory Nat := []
  receivers : Directory Nat := []
  records : Directory (Filed String) := []
  sets : Directory (List (Filed String)) := []
  crews : Directory Crew := []
  /-- What was logged since the log was last taken. -/
  log : List Event := []

namespace Task

/-- One step of a thread: the thread, the channels, and what it reports. -/
def step (t : Task) (channels : Array (Channel Payload)) :
    Option (Task × Array (Channel Payload) × Option StageNote) :=
  match t.worker with
  | .waiting => do
    let key ← t.source
    let source ← channels[key]?
    let (worker, source, note) ← Worker.receive source
    let worker := if t.target.isNone then .leaving false else worker
    return ({ t with worker }, channels.setIfInBounds key source, some note)
  | .holding p => some ({ t with worker := .compute t.stage t.thread p }, channels, none)
  | .sending p => do
    let key ← t.target
    let target ← channels[key]?
    let (worker, target, note) ← Worker.deliver p target
    return ({ t with worker }, channels.setIfInBounds key target, some note)
  | .leaving panicked =>
    let channels := match t.target with
      | some key => channels.modify key .closeSender
      | none => channels
    let channels := match t.source with
      | some key => channels.modify key .closeReceiver
      | none => channels
    some ({ t with worker := .exited panicked }, channels, none)
  | .exited _ => none

end Task

namespace Session

/-- The step of the first thread that is not blocked. -/
def threadStep (s : Session) : Option Session :=
  (List.range s.tasks.size).findSome? fun i => do
    let t ← s.tasks[i]?
    let (t, channels, _) ← t.step s.channels
    return { s with tasks := s.tasks.setIfInBounds i t, channels }

/-- Lets the threads take up to `fuel` steps. -/
def settleFor : Nat → Session → Session
  | 0, s => s
  | fuel + 1, s =>
    match s.threadStep with
    | some s => settleFor fuel s
    | none => s

/-- Lets the threads go on until none of them can. -/
def settle (s : Session) : Session :=
  s.settleFor (s.tasks.foldl (fun n t => n + t.worker.stepsLeft) 0)

/-- The session with more events logged. -/
def note (s : Session) (events : List Event) : Session :=
  { s with log := s.log ++ events }

/-- The channel of a key. -/
def channel (s : Session) (key : Nat) : Channel Payload :=
  s.channels[key]?.getD (.ofCapacity .single)

/-- The session with one channel replaced. -/
def setChannel (s : Session) (key : Nat) (c : Channel Payload) : Session :=
  { s with channels := s.channels.setIfInBounds key c }

/-- The session after the sending end of a channel was dropped. -/
def closeSender (s : Session) (key : Nat) : Session :=
  { s with channels := s.channels.modify key .closeSender }

/-- The session after the receiving end of a channel was dropped. -/
def closeReceiver (s : Session) (key : Nat) : Session :=
  { s with channels := s.channels.modify key .closeReceiver }

/-- The session after a record was dropped. -/
def dropFiled (s : Session) (f : Filed String) : Session :=
  let (books, events) := f.drop s.books
  { s with books }.note events

/-- The session after a channel with its ends and its record was dropped. -/
def dropWhole (s : Session) (w : Whole) : Session :=
  ((s.closeSender w.channel).closeReceiver w.channel).dropFiled w.filed

/-- The session after a set of records was dropped. -/
def dropSet (s : Session) (records : List (Filed String)) : Session :=
  let (books, events) := dropAll s.books records
  { s with books }.note events

/-- Whether a thread panicked. -/
def panicked (s : Session) (thread : Nat) : Bool :=
  (s.tasks[thread]?.bind fun t => t.worker.exit?).getD false

/-- Whether all threads of a crew have exited, so that joining them does not block. -/
def canJoin (s : Session) (crew : Crew) : Bool :=
  crew.handles.all fun h => (s.tasks[h.thread]?.bind fun t => t.worker.exit?).isSome

/-- The session after a crew was dropped, which joins its threads. -/
def dropCrew (s : Session) (crew : Crew) : Session :=
  let (l, events) := Relay.dropCrew s.panicked crew.handles (s.books.ledger crew.ledger)
  { s with books := s.books.update crew.ledger l }.note events

end Session

end Relay

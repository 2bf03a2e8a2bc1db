import Relay.Crew
import Relay.Invocation.Wired
import Relay.Record

/-!
# The steps of one run

`Invocation.step` is the transition function of a run: the caller, who sets up the channels and
stage threads, feeds the first channel, reads the last one and then takes everything down, and
beside it the stage threads, in any order. A party that is blocked has no step.

The caller creates the first channel; for each stage it creates the output channel and starts the
thread; it sends the input and closes its end, receives the result and closes that end, joins all
threads in the order of their start, and disposes all channels in the order of their creation. If
a thread cannot be started it closes the ends that it holds, joins the threads that it did start,
and drops the records of the channels. After a panic or a failed disposal it drops the records as
well.
-/

namespace Relay

/-- How a run ended. -/
inductive Ending (ω : Type) where
  | returned (value : ω)
  | failed (error : RunError)
  /-- The caller was unwound and nothing was returned. -/
  | unwound
  deriving DecidableEq, Repr

/-- What the caller of a run is about to do; `β` is what comes out of the last channel so far. -/
inductive Phase (α ω : Type) : Type → Type 1 where
  /-- Create the first channel. -/
  | opening : Phase α ω α
  /-- Create the output channel of the next stage, or note that all stages are wired. -/
  | wiring {β : Type} (rest : Chain β ω) : Phase α ω β
  /-- Start the thread of a stage, whose output channel exists. -/
  | spawning {β γ : Type} (s : Stage β γ) (out : Channel γ) (rest : Chain γ ω) : Phase α ω β
  /-- Send the input. -/
  | sending : Phase α ω ω
  /-- Close the sending end of the first channel. -/
  | closingFirst : Phase α ω ω
  /-- Receive the result. -/
  | receiving : Phase α ω ω
  /-- Close the receiving end of the last channel. -/
  | closingLast (got : Option ω) : Phase α ω ω
  /-- Join the next thread, or go on if all are joined. -/
  | joining (got : Option ω) (fault : Option Fault) : Phase α ω ω
  /-- Dispose the next channel, or return the result if all are disposed; the records of those
  that are disposed already are set apart. -/
  | disposing (value : ω) (done : List Record) : Phase α ω ω
  /-- Close the receiving end of the last channel, on the way to a failure. -/
  | forsaking {β : Type} (ending : Ending ω) : Phase α ω β
  /-- Close the sending end of the first channel, on the way to a failure. -/
  | abandoning {β : Type} (ending : Ending ω) : Phase α ω β
  /-- Join the next thread of the dropped crew, or warn of the first fault if all are joined. -/
  | reaping {β : Type} (ending : Ending ω) (fault : Option Fault) : Phase α ω β
  /-- Drop the next record. -/
  | dropping {β : Type} (ending : Ending ω) : Phase α ω β
  /-- Nothing. -/
  | finished {β : Type} (ending : Ending ω) : Phase α ω β

/-- What a run is asked to do. -/
structure Plan (α ω : Type) where
  pipeline : Pipeline α ω
  input : α
  /-- What comes of starting the thread of a stage, by its place in the chain and its name. -/
  host : Nat → String → SpawnOutcome

/-- What the caller of a run holds besides channel ends, and what it has logged. -/
structure Custody where
  /-- The threads that were started and not joined, in the order of their start. -/
  crew : List Handle := []
  /-- The records of the channels that are left to release, in the order of their creation. -/
  records : List Record := []
  /-- What the caller has logged, oldest first. -/
  log : List Event := []
  deriving DecidableEq, Repr

/-- The custody with more events logged. -/
def Custody.note (c : Custody) (events : List Event) : Custody :=
  { c with log := c.log ++ events }

/-- The custody with one more thread. -/
def Custody.enlist (c : Custody) (h : Handle) : Custody :=
  { c with crew := c.crew ++ [h] }

/-- The custody with one more record. -/
def Custody.file (c : Custody) (r : Record) : Custody :=
  { c with records := c.records ++ [r] }

/-- A run under way. -/
structure Invocation (α ω : Type) where
  plan : Plan α ω
  custody : Custody
  /-- What comes out of the last channel so far. -/
  {reach : Type}
  wired : Wired α reach
  phase : Phase α ω reach

/-- Who takes a step: the caller, or the thread of the stage at a position counted from zero. -/
inductive Move where
  | caller
  | thread (i : Nat)
  deriving DecidableEq, Repr

namespace Plan

variable {α ω : Type}

/-- The tuning of a run. -/
def tuning (p : Plan α ω) : Tuning := p.pipeline.tuning

/-- The first stage, as a broken hand-off names it. -/
def firstStage (p : Plan α ω) : String := p.pipeline.stageNames.head?.getD "entry"

/-- The last stage, as a broken hand-off names it. -/
def lastStage (p : Plan α ω) : String := p.pipeline.stageNames.getLast?.getD "entry"

/-- The failure to start the thread of a stage. -/
def spawnFailure (p : Plan α ω) (stage : String) : RunError :=
  ⟨["wire pipeline [" ++ arrows p.pipeline.stageNames ++ "]"], .spawn stage none⟩

/-- The start of a run. -/
def start (p : Plan α ω) : Invocation α ω :=
  { plan := p, custody := {}, wired := .entry (.ofCapacity p.tuning.capacity), phase := .opening }

end Plan

namespace Invocation

variable {α ω : Type}

/-- How the run ended, if it has. -/
def ending? (v : Invocation α ω) : Option (Ending ω) :=
  match v.phase with
  | .finished ending => some ending
  | _ => none

/-- Creates the channel of a record: the record on the ledger and in custody. -/
def acquire (p : Plan α ω) (c : Custody) (l : Ledger) : Custody × Ledger :=
  let (record, l) := Record.create p.tuning.capacity l
  ((c.file record).note [record.creation], l)

/-- The next step of the caller, if it is not blocked and not done. -/
def callerStep (p : Plan α ω) (c : Custody) (l : Ledger) {β : Type} (w : Wired α β) :
    Phase α ω β → Option (Ledger × Invocation α ω)
  | .opening =>
    let (c, l) := acquire p c l
    some (l, ⟨p, c, w, .wiring p.pipeline.chain⟩)
  | .wiring .nil =>
    some (l, ⟨p, c.note [.wired c.crew.length c.records.length], w, .sending⟩)
  | .wiring (.cons s rest) =>
    let (c, l) := acquire p c l
    some (l, ⟨p, c, w, .spawning s (.ofCapacity p.tuning.capacity) rest⟩)
  | .spawning s out rest =>
    let thread := p.tuning.threadName s.name
    match p.host (w.size + 1) thread with
    | .started =>
      let c := (c.enlist ⟨s.name, w.size⟩).note [.spawned s.name]
      some (l.bump .threadsSpawned,
        ⟨p, c, .lane w { stage := s, index := w.size + 1, thread, out }, .wiring rest⟩)
    | .refused =>
      some (l, ⟨p, c, w.mapLast .closeReceiver, .abandoning (.failed (p.spawnFailure s.name))⟩)
    | .unwound => some (l, ⟨p, c, w.mapLast .closeReceiver, .abandoning .unwound⟩)
  | .sending =>
    match w.first.send p.input with
    | .done first => some (l, ⟨p, c, w.mapFirst fun _ => first, .closingFirst⟩)
    | .blocked => none
    | .closed => some (l, ⟨p, c, w, .forsaking (.failed ⟨[], .disconnected p.firstStage⟩)⟩)
  | .closingFirst => some (l, ⟨p, c, w.mapFirst .closeSender, .receiving⟩)
  | .receiving =>
    match w.last.receive with
    | .done (value, last) => some (l, ⟨p, c, w.setLast last, .closingLast (some value)⟩)
    | .blocked => none
    | .closed => some (l, ⟨p, c, w, .closingLast none⟩)
  | .closingLast got => some (l, ⟨p, c, w.mapLast .closeReceiver, .joining got none⟩)
  | .joining got fault =>
    match c.crew with
    | h :: crew =>
      match w.exit? h.thread with
      | some panicked =>
        let (fault, l, event) := h.join panicked fault l
        some (l, ⟨p, { c with crew }.note [event], w, .joining got fault⟩)
      | none => none
    | [] =>
      match fault, got with
      | some fault, _ => some (l, ⟨p, c, w, .dropping (.failed ⟨[], fault⟩)⟩)
      | none, some value => some (l, ⟨p, c, w, .disposing value []⟩)
      | none, none =>
        some (l, ⟨p, c, w, .dropping (.failed ⟨[], .disconnected p.lastStage⟩)⟩)
  | .disposing value done =>
    match c.records with
    | [] => some (l, ⟨p, c.note [.finished l.snapshot], w, .finished (.returned value)⟩)
    | record :: records =>
      match record.dispose l with
      | .ok (record, l) =>
        some (l, ⟨p, { c with records }.note [.disposed record.id], w,
          .disposing value (done ++ [record])⟩)
      | .error fault =>
        some (l, ⟨p, { c with records := done ++ record :: records }, w,
          .dropping (.failed ⟨[], fault⟩)⟩)
  | .forsaking ending => some (l, ⟨p, c, w.mapLast .closeReceiver, .abandoning ending⟩)
  | .abandoning ending => some (l, ⟨p, c, w.mapFirst .closeSender, .reaping ending none⟩)
  | .reaping ending fault =>
    match c.crew with
    | h :: crew =>
      match w.exit? h.thread with
      | some panicked =>
        let (fault, l, event) := h.join panicked fault l
        some (l, ⟨p, { c with crew }.note [event], w, .reaping ending fault⟩)
      | none => none
    | [] =>
      some (l, ⟨p, c.note (fault.map .warning).toList, w, .dropping ending⟩)
  | .dropping ending =>
    match c.records with
    | [] => some (l, ⟨p, c, w, .finished ending⟩)
    | record :: records =>
      let (l, events) := record.drop l
      some (l, ⟨p, { c with records }.note events, w, .dropping ending⟩)
  | .finished _ => none

/-- The state after one party took a step, with the ledger. -/
def step (move : Move) (l : Ledger) (v : Invocation α ω) : Option (Ledger × Invocation α ω) :=
  match move with
  | .caller => callerStep v.plan v.custody l v.wired v.phase
  | .thread i => (v.wired.step i).map fun w => (l, ⟨v.plan, v.custody, w, v.phase⟩)

end Invocation

end Relay

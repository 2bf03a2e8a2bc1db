import Relay.Invocation.Run
import Relay.Session.Basic

/-!
# Actions on a session

What can be done with the named objects of a session, and what comes of it. An action on an
absent object, and one that could block for good, is refused and changes nothing. Putting an
object in place of another of its name drops the other.
-/

namespace Relay

/-- What a started thread does. -/
inductive ThreadBody where
  | idle
  | panic
  /-- Receives once on the receiving end of a channel. -/
  | receiveOn (channel : String)
  deriving DecidableEq, Repr

/-- An action on a session. -/
inductive Action where
  | create (channel : String) (capacity : Nat)
  | send (channel : String) (value : Payload)
  | receive (channel : String)
  | inspect (channel : String)
  /-- Another thread sends all values while this one receives as many. -/
  | deliver (channel : String) (values : List Payload)
  | dispose (channel : String)
  | drop (channel : String)
  /-- Takes a channel apart into its ends and its record. -/
  | split (channel : String)
  | sendOn (channel : String) (value : Payload)
  | receiveOn (channel : String)
  | dropSender (channel : String)
  | dropReceiver (channel : String)
  | inspectRecord (channel : String)
  | disposeRecord (channel : String)
  | dropRecord (channel : String)
  /-- Moves a record into a set. -/
  | collect (set channel : String)
  | inspectSet (set : String)
  | disposeSet (set : String)
  | dropSet (set : String)
  | hire (crew : String) (options : PipelineOptions)
  | spawn (crew stage : String) (body : ThreadBody)
  | spawnStage (crew stage : String) (f : Function) (source target : String) (index : Nat)
  | runStage (stage : String) (f : Function) (source target : String) (index : Nat)
  | join (crew : String)
  | dismiss (crew : String)
  | run (stages : List (String × Function)) (input : Payload) (options : PipelineOptions)

/-- What an action comes to. -/
inductive Outcome where
  /-- Nothing but what is observed. -/
  | observed
  | done
  | value (p : Payload)
  /-- An object is absent. -/
  | missing
  /-- The action could block for good. -/
  | wouldBlock
  /-- The other end of the channel is gone. -/
  | closed
  | fault (f : Fault)
  /-- The thread of the session panicked. -/
  | panicked
  /-- How a run ended. -/
  | ended (ending : Option (Ending Payload))

/-- Something that an action lets see. -/
inductive Observation where
  | id (n : Nat)
  | capacity (n : Nat)
  | occupancy (n : Nat)
  | disposed (b : Bool)
  | size (n : Nat)
  | isEmpty (b : Bool)
  | name (s : String)
  /-- Whether all values were sent. -/
  | sent (b : Bool)
  | got (values : List Payload)

/-- The answer to an action. -/
structure Reply where
  outcome : Outcome
  seen : List Observation := []

namespace Session

/-- Refuses an action. -/
def refuse (s : Session) (outcome : Outcome) : Reply × Session := (⟨outcome, []⟩, s)

/-- Creates a channel on the ledger named `ledger`. -/
def create (s : Session) (ledger name : String) (capacity : Nat) : Reply × Session :=
  match Capacity.ofNat? capacity with
  | .error fault => s.refuse (.fault fault)
  | .ok capacity =>
    let (record, l) := Record.create capacity (s.books.ledger ledger)
    let whole : Whole := ⟨s.channels.size, ⟨ledger, record⟩⟩
    let old := s.wholes.find? name
    let s := { s with
      books := s.books.update ledger l
      channels := s.channels.push (.ofCapacity capacity)
      wholes := s.wholes.put name whole }.note [record.creation]
    let s := match old with
      | some old => s.dropWhole old
      | none => s
    (⟨.observed, [.id record.id, .capacity record.capacity, .occupancy 0]⟩, s)

/-- Sends on a channel that has both ends. -/
def send (s : Session) (name : String) (value : Payload) : Reply × Session :=
  match s.wholes.find? name with
  | none => s.refuse .missing
  | some whole =>
    match (s.channel whole.channel).send value with
    | .done c => (⟨.done, [.occupancy c.occupancy]⟩, s.setChannel whole.channel c)
    | .blocked => s.refuse .wouldBlock
    | .closed => s.refuse (.fault (.disconnected s!"channel #{whole.filed.record.id}"))

/-- Receives on a channel that has both ends. -/
def receive (s : Session) (name : String) : Reply × Session :=
  match s.wholes.find? name with
  | none => s.refuse .missing
  | some whole =>
    match (s.channel whole.channel).receive with
    | .done (p, c) => (⟨.value p, [.occupancy c.occupancy]⟩, s.setChannel whole.channel c)
    | .blocked => s.refuse .wouldBlock
    | .closed => s.refuse (.fault (.disconnected s!"channel #{whole.filed.record.id}"))

/-- Looks at a channel. -/
def inspect (s : Session) (name : String) : Reply × Session :=
  match s.wholes.find? name with
  | none => s.refuse .missing
  | some whole =>
    (⟨.observed, [.id whole.filed.record.id, .capacity whole.filed.record.capacity,
      .occupancy (s.channel whole.channel).occupancy]⟩, s)

/-- Hands values through a channel: those that it holds come first. -/
def deliver (s : Session) (name : String) (values : List Payload) : Reply × Session :=
  match s.wholes.find? name with
  | none => s.refuse .missing
  | some whole =>
    let c := s.channel whole.channel
    let all := c.queue ++ values
    let c := { c with queue := all.drop values.length }
    (⟨.observed, [.sent true, .got (all.take values.length), .occupancy c.occupancy]⟩,
      s.setChannel whole.channel c)

/-- Disposes a channel with its ends. One that cannot be is dropped instead. -/
def dispose (s : Session) (name : String) : Reply × Session :=
  match s.wholes.find? name with
  | none => s.refuse .missing
  | some whole =>
    let s := { s with wholes := s.wholes.erase name }
    let s := (s.closeSender whole.channel).closeReceiver whole.channel
    match whole.filed.dispose s.books with
    | .ok (filed, books) => (⟨.done, []⟩, { s with books }.note [.disposed filed.record.id])
    | .error fault => (⟨.fault fault, []⟩, s.dropFiled whole.filed)

/-- Drops a channel with its ends. -/
def drop (s : Session) (name : String) : Reply × Session :=
  match s.wholes.find? name with
  | none => s.refuse .missing
  | some whole => (⟨.done, []⟩, { s with wholes := s.wholes.erase name }.dropWhole whole)

/-- Puts a sending end under a name. -/
def putSender (s : Session) (name : String) (key : Nat) : Session :=
  let old := s.senders.find? name
  let s := { s with senders := s.senders.put name key }
  match old with
  | some old => s.closeSender old
  | none => s

/-- Puts a receiving end under a name. -/
def putReceiver (s : Session) (name : String) (key : Nat) : Session :=
  let old := s.receivers.find? name
  let s := { s with receivers := s.receivers.put name key }
  match old with
  | some old => s.closeReceiver old
  | none => s

/-- Puts a record under a name. -/
def putRecord (s : Session) (name : String) (f : Filed String) : Session :=
  let old := s.records.find? name
  let s := { s with records := s.records.put name f }
  match old with
  | some old => s.dropFiled old
  | none => s

/-- Takes a channel apart into its ends and its record, under the same name. -/
def split (s : Session) (name : String) : Reply × Session :=
  match s.wholes.find? name with
  | none => s.refuse .missing
  | some whole =>
    let s := { s with wholes := s.wholes.erase name }
    let s := s.putSender name whole.channel
    let s := s.putReceiver name whole.channel
    (⟨.done, []⟩, s.putRecord name whole.filed)

/-- Sends on a sending end. -/
def sendOn (s : Session) (name : String) (value : Payload) : Reply × Session :=
  match s.senders.find? name with
  | none => s.refuse .missing
  | some key =>
    match (s.channel key).send value with
    | .done c => (⟨.done, []⟩, s.setChannel key c)
    | .blocked => s.refuse .wouldBlock
    | .closed => s.refuse .closed

/-- Receives on a receiving end. -/
def receiveOn (s : Session) (name : String) : Reply × Session :=
  match s.receivers.find? name with
  | none => s.refuse .missing
  | some key =>
    match (s.channel key).receive with
    | .done (p, c) => (⟨.value p, []⟩, s.setChannel key c)
    | .blocked => s.refuse .wouldBlock
    | .closed => s.refuse .closed

/-- Drops a sending end. -/
def dropSender (s : Session) (name : String) : Reply × Session :=
  match s.senders.find? name with
  | none => s.refuse .missing
  | some key => (⟨.done, []⟩, { s with senders := s.senders.erase name }.closeSender key)

/-- Drops a receiving end. -/
def dropReceiver (s : Session) (name : String) : Reply × Session :=
  match s.receivers.find? name with
  | none => s.refuse .missing
  | some key => (⟨.done, []⟩, { s with receivers := s.receivers.erase name }.closeReceiver key)

/-- Looks at a record. -/
def inspectRecord (s : Session) (name : String) : Reply × Session :=
  match s.records.find? name with
  | none => s.refuse .missing
  | some f =>
    (⟨.observed, [.id f.record.id, .capacity f.record.capacity, .disposed f.record.disposed]⟩, s)

/-- Disposes a record, which stays either way. -/
def disposeRecord (s : Session) (name : String) : Reply × Session :=
  match s.records.find? name with
  | none => s.refuse .missing
  | some f =>
    match f.dispose s.books with
    | .ok (f, books) =>
      (⟨.done, []⟩, { s with books, records := s.records.put name f }.note [.disposed f.record.id])
    | .error fault => s.refuse (.fault fault)

/-- Drops a record. -/
def dropRecord (s : Session) (name : String) : Reply × Session :=
  match s.records.find? name with
  | none => s.refuse .missing
  | some f => (⟨.done, []⟩, { s with records := s.records.erase name }.dropFiled f)

/-- What is seen of a collection of so many things. -/
def counted (n : Nat) : List Observation := [.size n, .isEmpty (n = 0)]

/-- Moves a record to the end of a set. -/
def collect (s : Session) (set name : String) : Reply × Session :=
  match s.records.find? name with
  | none => s.refuse .missing
  | some f =>
    let records := (s.sets.find? set).getD [] ++ [f]
    (⟨.observed, counted records.length⟩,
      { s with records := s.records.erase name, sets := s.sets.put set records })

/-- Looks at a set, which is there from then on. -/
def inspectSet (s : Session) (set : String) : Reply × Session :=
  let records := (s.sets.find? set).getD []
  (⟨.observed, counted records.length⟩, { s with sets := s.sets.put set records })

/-- Disposes the records of a set, which keeps them. -/
def disposeSet (s : Session) (set : String) : Reply × Session :=
  match s.sets.find? set with
  | none => s.refuse .missing
  | some records =>
    let d := disposeAll s.books records
    let outcome := match d.fault with
      | some fault => .fault fault
      | none => .done
    (⟨outcome, [.size d.records.length]⟩,
      { s with books := d.books, sets := s.sets.put set d.records }.note d.events)

/-- Drops a set with its records. -/
def discardSet (s : Session) (set : String) : Reply × Session :=
  match s.sets.find? set with
  | none => s.refuse .missing
  | some records => (⟨.done, []⟩, { s with sets := s.sets.erase set }.dropSet records)

/-- Makes an empty crew on the ledger named `ledger`. -/
def hire (s : Session) (ledger name : String) (o : PipelineOptions) : Reply × Session :=
  match Tuning.ofOptions? o with
  | .error fault => s.refuse (.fault fault)
  | .ok tuning =>
    let crew : Crew := { tuning, ledger }
    match s.crews.find? name with
    | none => (⟨.done, []⟩, { s with crews := s.crews.put name crew })
    | some old =>
      if s.canJoin old then
        (⟨.done, []⟩, { s with crews := s.crews.put name crew }.dropCrew old)
      else s.refuse .wouldBlock

/-- Starts a thread in a crew. If it cannot be started its channel ends are dropped. -/
def enlist (s : Session) (host : Host) (name : String) (crew : Crew) (task : Task)
    (seen : Nat → List Observation) : Reply × Session :=
  let stage := task.stage.name
  let lost :=
    let s := (task.target.map s.closeSender).getD s
    (task.source.map s.closeReceiver).getD s
  match host crew.tuning (crew.handles.length + 1) task.thread with
  | .started =>
    let crew := { crew with handles := crew.handles ++ [Handle.mk stage s.tasks.size] }
    let l := (s.books.ledger crew.ledger).bump .threadsSpawned
    (⟨.done, seen crew.handles.length⟩,
      { s with
        books := s.books.update crew.ledger l
        tasks := s.tasks.push task
        crews := s.crews.put name crew }.note [.spawned stage])
  | .refused => (⟨.fault (.spawn stage none), seen crew.handles.length⟩, lost)
  | .unwound => (⟨.panicked, seen crew.handles.length⟩, lost)

/-- Starts a thread with a simple body in a crew. -/
def spawn (s : Session) (host : Host) (name stage : String) (body : ThreadBody) :
    Reply × Session :=
  match s.crews.find? name with
  | none => s.refuse .missing
  | some crew =>
    let task : Task :=
      { stage := Function.identity.stage stage, index := 0, thread := crew.tuning.threadName stage,
        source := none, target := none, worker := .leaving false }
    match body with
    | .idle => s.enlist host name crew task counted
    | .panic => s.enlist host name crew { task with worker := .leaving true } counted
    | .receiveOn channel =>
      match s.receivers.find? channel with
      | none => s.refuse .missing
      | some key =>
        { s with receivers := s.receivers.erase channel }.enlist host name crew
          { task with source := some key, worker := .waiting } counted

/-- Starts the thread of a stage in a crew, which takes over the channel ends. -/
def spawnStage (s : Session) (host : Host) (name stage : String) (f : Function)
    (source target : String) (index : Nat) : Reply × Session :=
  match s.receivers.find? source, s.senders.find? target, s.crews.find? name with
  | some sourceKey, some targetKey, some crew =>
    let s := { s with
      receivers := s.receivers.erase source
      senders := s.senders.erase target }
    s.enlist host name crew
      { stage := f.stage stage, index, thread := crew.tuning.threadName stage,
        source := some sourceKey, target := some targetKey, worker := .waiting }
      fun n => [.size n]
  | _, _, _ => s.refuse .missing

/-- The name of the thread that a session runs on. -/
def mainThread : String := "main"

/-- Runs a task to its end on the thread of the session. -/
def work : Nat → Task → Session → Task × Session
  | 0, t, s => (t, s)
  | fuel + 1, t, s =>
    match t.step s.channels with
    | some (t', channels, note) =>
      work fuel t' ({ s with channels }.note
        (note.map (Event.inStage t.index t.stage.name)).toList)
    | none => (t, s)

/-- Runs a stage on the thread of the session, which uses up the channel ends. -/
def runStage (s : Session) (stage : String) (f : Function) (source target : String)
    (index : Nat) : Reply × Session :=
  match s.receivers.find? source, s.senders.find? target with
  | some sourceKey, some targetKey =>
    let waits := match (s.channel sourceKey).queue with
      | [] => (s.channel sourceKey).sender
      | _ :: _ =>
        let c := s.channel targetKey
        c.receiver && c.capacity ≤ c.queue.length
    if waits then s.refuse .wouldBlock
    else
      let s := { s with
        receivers := s.receivers.erase source
        senders := s.senders.erase target }
      let t : Task :=
        { stage := f.stage stage, index, thread := mainThread, source := some sourceKey,
          target := some targetKey, worker := .waiting }
      let (t, s) := s.work t.worker.stepsLeft t
      let outcome := if t.worker.exit? = some true then .panicked else .done
      (⟨outcome, [.name stage]⟩, s)
  | _, _ => s.refuse .missing

/-- Joins the threads of a crew, which stays. -/
def join (s : Session) (name : String) : Reply × Session :=
  match s.crews.find? name with
  | none => s.refuse .missing
  | some crew =>
    if s.canJoin crew then
      let (fault, l, events) := joinAll s.panicked crew.handles (s.books.ledger crew.ledger)
      let outcome := match fault with
        | some fault => .fault fault
        | none => .done
      (⟨outcome, [.size 0]⟩,
        { s with
          books := s.books.update crew.ledger l
          crews := s.crews.put name { crew with handles := [] } }.note events)
    else s.refuse .wouldBlock

/-- Drops a crew. -/
def dismiss (s : Session) (name : String) : Reply × Session :=
  match s.crews.find? name with
  | none => s.refuse .missing
  | some crew =>
    if s.canJoin crew then
      (⟨.done, []⟩, { s with crews := s.crews.erase name }.dropCrew crew)
    else s.refuse .wouldBlock

/-- Runs a pipeline on the ledger named `ledger`. -/
def run (s : Session) (host : Host) (ledger : String) (stages : List (String × Function))
    (input : Payload) (o : PipelineOptions) : Reply × Session :=
  match (Pipeline.new.withFunctions stages).withOptions o with
  | .error fault => s.refuse (.fault fault)
  | .ok pipeline =>
    let report := pipeline.run input (s.books.ledger ledger) (host pipeline.tuning)
    (⟨.ended report.ending, []⟩,
      { s with books := s.books.update ledger report.ledger }.note report.log)

/-- Does an action; `ledger` names the ledger for what it creates, and `host` tells what comes of
the threads that it starts. -/
def perform (s : Session) (host : Host) (ledger : String) : Action → Reply × Session
  | .create channel capacity => s.create ledger channel capacity
  | .send channel value => s.send channel value
  | .receive channel => s.receive channel
  | .inspect channel => s.inspect channel
  | .deliver channel values => s.deliver channel values
  | .dispose channel => s.dispose channel
  | .drop channel => s.drop channel
  | .split channel => s.split channel
  | .sendOn channel value => s.sendOn channel value
  | .receiveOn channel => s.receiveOn channel
  | .dropSender channel => s.dropSender channel
  | .dropReceiver channel => s.dropReceiver channel
  | .inspectRecord channel => s.inspectRecord channel
  | .disposeRecord channel => s.disposeRecord channel
  | .dropRecord channel => s.dropRecord channel
  | .collect set channel => s.collect set channel
  | .inspectSet set => s.inspectSet set
  | .disposeSet set => s.disposeSet set
  | .dropSet set => s.discardSet set
  | .hire crew options => s.hire ledger crew options
  | .spawn crew stage body => s.spawn host crew stage body
  | .spawnStage crew stage f source target index =>
    s.spawnStage host crew stage f source target index
  | .runStage stage f source target index => s.runStage stage f source target index
  | .join crew => s.join crew
  | .dismiss crew => s.dismiss crew
  | .run stages input options => s.run host ledger stages input options

/-- The session with the ledger named `ledger` in its books. -/
def openLedger (s : Session) (ledger : String) : Session :=
  { s with books := s.books.update ledger (s.books.ledger ledger) }

/-- Does an action on a fresh log and lets the threads settle. -/
def act (s : Session) (ledger : String) (a : Action) (host : Host := .usual) : Reply × Session :=
  let (reply, s) := ({ s with log := [] }.openLedger ledger).perform host ledger a
  (reply, s.settle)

/-- Ends a session: everything that is left is dropped, kind by kind and in the order of the
names, on a fresh log. -/
def close (s : Session) : Session :=
  let s := { s with log := [] }
  let s := s.senders.objects.foldl closeSender { s with senders := [] }
  let s := (s.receivers.objects.foldl closeReceiver { s with receivers := [] }).settle
  let s := s.crews.objects.foldl dropCrew { s with crews := [] }
  let s := s.wholes.objects.foldl dropWhole { s with wholes := [] }
  let s := s.records.objects.foldl dropFiled { s with records := [] }
  s.sets.objects.foldl dropSet { s with sets := [] }

end Session

end Relay

import Relay.Invocation.Step

/-!
# Runs that share a ledger

A run that has its ledger to itself may read all counters of a snapshot at once. While others use
the ledger, its caller reads them one after the other (`Reading`), the others move in between, and
what the caller does next rests on what it has read. A `Guest` is a run together with the snapshot
that its caller has in the making. A `Duo` is two guests on one ledger, of which either may move.
-/

namespace Relay

/-- The ledger after the counters were moved up as they were from `before` to `after`. -/
def Ledger.follow (l before after : Ledger) : Ledger where
  channelsCreated := l.channelsCreated + (after.channelsCreated - before.channelsCreated)
  channelsDisposed := l.channelsDisposed + (after.channelsDisposed - before.channelsDisposed)
  threadsSpawned := l.threadsSpawned + (after.threadsSpawned - before.threadsSpawned)
  threadsJoined := l.threadsJoined + (after.threadsJoined - before.threadsJoined)

/-- Whether the next step of the caller takes a snapshot of the ledger: to dispose or drop a record
that is not disposed yet, or to log it when all of them are disposed. -/
def Invocation.looks {α ω : Type} (v : Invocation α ω) : Bool :=
  match v.phase, v.custody.records with
  | .disposing _ _, [] => true
  | .disposing _ _, record :: _ | .dropping _, record :: _ => !record.disposed
  | _, _ => false

/-- A run, and the snapshot that its caller has in the making. -/
structure Guest (α ω : Type) where
  run : Invocation α ω
  reading : Reading := {}

/-- The guest after one of its parties took a step, with the ledger. The caller reads one counter
after the other, and then moves the ledger as it would move what it has read. -/
def Guest.step {α ω : Type} (move : Move) (l : Ledger) (g : Guest α ω) :
    Option (Ledger × Guest α ω) :=
  if move = .caller ∧ g.run.looks then
    if g.reading.isDone then
      (g.run.step move g.reading.seen).map fun (after, run) =>
        (l.follow g.reading.seen after, { run })
    else some (l, { g with reading := g.reading.advance l })
  else (g.run.step move l).map fun (l, run) => (l, { g with run })

/-- Two runs on one ledger. -/
structure Duo (α ω α' ω' : Type) where
  ledger : Ledger
  left : Guest α ω
  right : Guest α' ω'

/-- One of two runs. -/
inductive Side where
  | left
  | right
  deriving DecidableEq, Repr

namespace Duo

variable {α ω α' ω' : Type}

/-- Two runs that are about to start. -/
def start (p : Plan α ω) (p' : Plan α' ω') (l : Ledger) : Duo α ω α' ω' :=
  { ledger := l, left := { run := p.start }, right := { run := p'.start } }

/-- The state after a party of one of the runs took a step. -/
def step (side : Side) (move : Move) (d : Duo α ω α' ω') : Option (Duo α ω α' ω') :=
  match side with
  | .left => (d.left.step move d.ledger).map fun (ledger, left) => { d with ledger, left }
  | .right => (d.right.step move d.ledger).map fun (ledger, right) => { d with ledger, right }

end Duo

end Relay

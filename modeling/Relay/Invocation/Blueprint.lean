import Relay.Invocation.Step

/-!
# Pipelines as they are built

`Build` keeps the order in which stages and options were added to a pipeline. What is run is a chain
and a tuning (`Build.pipeline?`). A pipeline can also be kept as the names of its stages and one
function that wires them all (`Blueprint`): a stage that is added wraps that function in another
one, which holds on to the stage and to its place, while the options are read when it is called.
Both are built by the same calls.
-/

namespace Relay

variable {α β γ : Type}

/-! ## Wiring -/

/-- The name of the thread that runs a stage. -/
def PipelineOptions.threadName (o : PipelineOptions) (stage : String) : String :=
  o.threadPrefix ++ "-" ++ stage

/-- Creates a channel and takes its record into custody, with the ledger that counts it. A capacity
that no channel can have is refused. -/
def Custody.create? (c : Custody) (capacity : Nat) (τ : Type) (l : Ledger) :
    Except Fault (Channel τ × Custody × Ledger) :=
  (Capacity.ofNat? capacity).map fun capacity =>
    let (record, l) := Record.create capacity l
    (.ofCapacity capacity, (c.file record).note [record.creation], l)

/-- What the caller of a run has in hand while it wires the stages. -/
structure Rig (α β : Type) where
  ledger : Ledger
  custody : Custody
  wired : Wired α β

/-- What comes of wiring stages. -/
inductive Rigging (α β : Type) where
  | ready (r : Rig α β)
  /-- A channel cannot be created. -/
  | refused (fault : Fault)
  /-- The thread of a stage cannot be started. -/
  | stopped {γ : Type} (r : Rig α γ) (stage : String) (outcome : SpawnOutcome)

/-- Goes on wiring, if nothing has failed. -/
def Rigging.bind : Rigging α β → (Rig α β → Rigging α γ) → Rigging α γ
  | .ready r, next => next r
  | .refused fault, _ => .refused fault
  | .stopped r stage outcome, _ => .stopped r stage outcome

namespace Rig

variable (o : PipelineOptions) (host : Nat → String → SpawnOutcome)

/-- Starts the thread of a stage, whose output channel exists. -/
def launch (s : Stage β γ) (index : Nat) (out : Channel γ) (r : Rig α β) : Rigging α γ :=
  let thread := o.threadName s.name
  match host index thread with
  | .started =>
    .ready
      { ledger := r.ledger.bump .threadsSpawned
        custody := (r.custody.enlist ⟨s.name, r.wired.size⟩).note [.spawned s.name]
        wired := .lane r.wired { stage := s, index, thread, out } }
  | outcome => .stopped r s.name outcome

/-- Wires one more stage: creates its output channel and starts its thread. -/
def add (s : Stage β γ) (index : Nat) (r : Rig α β) : Rigging α γ :=
  match r.custody.create? o.capacity γ r.ledger with
  | .ok (out, custody, ledger) => launch o host s index out { r with custody, ledger }
  | .error fault => .refused fault

end Rig

/-! ## Blueprints -/

/-- The names of the stages of a pipeline, and one function that wires them all behind the first
channel of a run. -/
structure Blueprint (α β : Type) where
  names : List String
  options : PipelineOptions
  wire : PipelineOptions → (Nat → String → SpawnOutcome) → Rig α α → Rigging α β

namespace Blueprint

/-- The blueprint without stages. -/
def new : Blueprint α α := ⟨[], {}, fun _ _ => .ready⟩

/-- The blueprint with one more stage, which gets its place now. -/
def stage (q : Blueprint α β) (s : Stage β γ) : Blueprint α γ :=
  let index := q.names.length + 1
  { names := q.names ++ [s.name]
    options := q.options
    wire := fun o host r => (q.wire o host r).bind (Rig.add o host s index) }

/-- The blueprint with other options, or the fault that they are of no use. -/
def withOptions (q : Blueprint α β) (o : PipelineOptions) : Except Fault (Blueprint α β) :=
  (Capacity.ofNat? o.capacity).map fun _ => { q with options := o }

/-- Wires a run: creates the first channel and then wires all stages. -/
def rig (q : Blueprint α β) (host : Nat → String → SpawnOutcome) (l : Ledger) : Rigging α β :=
  match Custody.create? {} q.options.capacity α l with
  | .ok (first, custody, ledger) => q.wire q.options host ⟨ledger, custody, .entry first⟩
  | .error fault => .refused fault

end Blueprint

/-! ## Builds -/

/-- How a pipeline was built: the stages and options that were added, in order. -/
inductive Build : Type → Type → Type 1 where
  | new {α : Type} : Build α α
  | stage {α β γ : Type} (b : Build α β) (s : Stage β γ) : Build α γ
  | withOptions {α β : Type} (b : Build α β) (o : PipelineOptions) : Build α β

namespace Build

/-- The stages in the order in which they were added. -/
def stages {α β : Type} : Build α β → Chain α β
  | .new => .nil
  | .stage b s => b.stages.snoc s
  | .withOptions b _ => b.stages

/-- The options that were added last, or the defaults. -/
def options {α β : Type} : Build α β → PipelineOptions
  | .new => {}
  | .stage b _ => b.options
  | .withOptions _ o => o

/-- The pipeline that is built, or the fault of the first options that are of no use. -/
def pipeline? {α β : Type} : Build α β → Except Fault (Pipeline α β)
  | .new => .ok .new
  | .stage b s => b.pipeline?.map (·.stage s)
  | .withOptions b o => b.pipeline?.bind (·.withOptions o)

/-- The blueprint that is built, or the fault of the first options that are of no use. -/
def blueprint? {α β : Type} : Build α β → Except Fault (Blueprint α β)
  | .new => .ok .new
  | .stage b s => b.blueprint?.map (·.stage s)
  | .withOptions b o => b.blueprint?.bind (·.withOptions o)

end Build

end Relay

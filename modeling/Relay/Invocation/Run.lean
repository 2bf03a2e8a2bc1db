import Relay.Invocation.Step

/-!
# Running a pipeline

`Pipeline.run` drives a run to its end: the caller goes on as long as it can, and the stage
threads move when it cannot. The number of steps is bounded by `Invocation.stepsLeft`, so no run
is cut short.
-/

namespace Relay

/-- The steps that the caller of `stages` stages takes at most with `crew` threads to join and
`records` channels to release, together with those of the threads that it has still to start. -/
def Phase.stepsLeft {α ω β : Type} (stages crew records : Nat) : Phase α ω β → Nat
  | .opening => 9 * stages + 11
  | .wiring rest => 9 * rest.length + crew + 2 * records + 8
  | .spawning _ _ rest => 9 * rest.length + crew + 2 * records + 14
  | .sending => crew + 2 * records + 7
  | .closingFirst => crew + 2 * records + 6
  | .receiving => crew + 2 * records + 5
  | .closingLast _ => crew + 2 * records + 4
  | .joining _ _ => crew + 2 * records + 3
  | .disposing _ done => 2 * records + done.length + 2
  | .forsaking _ => crew + records + 4
  | .abandoning _ => crew + records + 3
  | .reaping _ _ => crew + records + 2
  | .dropping _ => records + 1
  | .finished _ => 0

namespace Invocation

variable {α ω : Type}

/-- The steps that a run takes at most from here on. -/
def stepsLeft (v : Invocation α ω) : Nat :=
  v.wired.stepsLeft + v.phase.stepsLeft v.plan.pipeline.length v.custody.crew.length
    v.custody.records.length

/-- The step of the first party that is not blocked: the caller, then the threads in order. -/
def advance (l : Ledger) (v : Invocation α ω) : Option (Ledger × Invocation α ω) :=
  (Move.caller :: (List.range v.wired.size).map .thread).findSome? fun move => v.step move l

/-- Takes up to `fuel` steps. -/
def drive : Nat → Ledger → Invocation α ω → Ledger × Invocation α ω
  | 0, l, v => (l, v)
  | fuel + 1, l, v =>
    match v.advance l with
    | some (l, v) => drive fuel l v
    | none => (l, v)

end Invocation

/-- What is left of a run: how it ended, the ledger, the caller's log, and how often the function
of each stage was applied. A stage whose thread was not started counts as never applied. -/
structure Report (ω : Type) where
  /-- `none` if no party could move before the caller was done. -/
  ending : Option (Ending ω)
  ledger : Ledger
  log : List Event
  calls : List Nat

namespace Pipeline

variable {α ω : Type}

/-- Starts threads as the tuning of the pipeline has it. -/
def host (p : Pipeline α ω) (_index : Nat) (thread : String) : SpawnOutcome :=
  p.tuning.spawnOutcome thread

/-- Runs a pipeline on an input and a ledger. The threads are started as the tuning has it, unless
something else comes of it. -/
def run (p : Pipeline α ω) (input : α) (l : Ledger := .empty)
    (host : Nat → String → SpawnOutcome := p.host) : Report ω :=
  let start := (Plan.mk p input host).start
  let (ledger, v) := start.drive start.stepsLeft l
  let calls := v.wired.calls
  { ending := v.ending?, ledger, log := v.custody.log,
    calls := calls ++ List.replicate (p.length - calls.length) 0 }

/-- Runs a pipeline with other options than its own, on a ledger of its own. -/
def runWith (p : Pipeline α ω) (input : α) (o : PipelineOptions) : Report ω :=
  match p.withOptions o with
  | .ok p => p.run input
  | .error fault =>
    ⟨some (.failed ⟨[], fault⟩), .empty, [], List.replicate p.length 0⟩

end Pipeline

/-- Runs a single function as a stage of its own. -/
def runStage {α ω : Type} (body : String → α → Option ω) (input : α) : Report ω :=
  (Pipeline.new.stage ⟨"stage", body⟩).run input

end Relay

import Relay.Channel
import Relay.Shape.Layout

/-!
# Tuning

How the channels and threads of a pipeline are built. `Tuning.ofOptions?` turns options into a
tuning and refuses a capacity that no channel can have. `Tuning.spawnOutcome` tells what comes of
starting a thread.
-/

namespace Relay

/-- The name of the program, which starts thread names and log lines. -/
def programName : String := "stagepipe"

/-- The capacity of channels unless another one is asked for. -/
def defaultCapacity : Nat := 1

/-- Options for running a pipeline. -/
structure PipelineOptions where
  /-- The capacity of every channel. -/
  capacity : Nat := defaultCapacity
  /-- What thread names start with. -/
  threadPrefix : String := programName
  /-- The stack size of stage threads, if not that of the platform. -/
  stackSize : Option Nat := none
  deriving DecidableEq, Repr

/-- Options that passed the check. -/
structure Tuning where
  capacity : Capacity := .single
  threadPrefix : String := programName
  stackSize : Option Nat := none
  deriving DecidableEq

/-- What comes of starting a thread. -/
inductive SpawnOutcome where
  | started
  /-- The system refuses to start the thread. -/
  | refused
  /-- Nothing is returned: the caller itself is unwound. -/
  | unwound
  deriving DecidableEq, Repr

namespace Tuning

/-- The tuning of some options, or the fault that their capacity is of no use. -/
def ofOptions? (o : PipelineOptions) : Except Fault Tuning :=
  match Capacity.ofNat? o.capacity with
  | .ok capacity => .ok ⟨capacity, o.threadPrefix, o.stackSize⟩
  | .error fault => .error fault

/-- The name of the thread that runs a stage. -/
def threadName (t : Tuning) (stage : String) : String :=
  t.threadPrefix ++ "-" ++ stage

/-- What comes of starting a thread named `name`. A name with a null character unwinds the
caller; a stack that cannot be addressed is refused. -/
def spawnOutcome (t : Tuning) (name : String) : SpawnOutcome :=
  if name.toList.contains '\x00' then .unwound
  else if DataType.addressable ≤ t.stackSize.getD 0 then .refused
  else .started

end Tuning

/-- What comes of starting threads: the outcome for a tuning, the place of the thread among those
that it is started with, and its name. -/
abbrev Host := Tuning → Nat → String → SpawnOutcome

/-- Starts threads as their tuning has it. -/
def Host.usual : Host := fun tuning _ thread => tuning.spawnOutcome thread

end Relay

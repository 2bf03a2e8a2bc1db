import Relay.Chain

/-!
# Wired stages

The channels and stage threads of one run, as far as they have been set up: the channel that the
caller feeds, then each stage with its thread and its output channel. `Wired.step i w` lets the
thread of the stage with position `i`, counted from zero, take one step; it is `none` if that
thread is blocked, has exited, or has not been started.
-/

namespace Relay

/-- A started stage: its place in the chain, its thread and its output channel. -/
structure Lane (α β : Type) where
  stage : Stage α β
  /-- The place in the chain; the caller stands at place zero. -/
  index : Nat
  /-- The name of the thread. -/
  thread : String
  out : Channel β
  worker : Worker α β := .waiting
  /-- How often the function of the stage was applied. -/
  calls : Nat := 0
  /-- What the thread has reported, oldest first. -/
  notes : List StageNote := []

namespace Lane

variable {α β : Type}

/-- One step of the thread of a stage that is fed by `source`. -/
def step (lane : Lane α β) (source : Channel α) : Option (Lane α β × Channel α) :=
  match lane.worker with
  | .waiting =>
    (Worker.receive source).map fun (worker, source, note) =>
      ({ lane with worker, notes := lane.notes ++ [note] }, source)
  | .holding a =>
    let worker := .compute lane.stage lane.thread a
    some ({ lane with worker, calls := lane.calls + 1 }, source)
  | .sending b =>
    (Worker.deliver b lane.out).map fun (worker, out, note) =>
      ({ lane with worker, out, notes := lane.notes ++ [note] }, source)
  | .leaving panicked =>
    some ({ lane with worker := .exited panicked, out := lane.out.closeSender },
      source.closeReceiver)
  | .exited _ => none

end Lane

/-- The channel that the caller feeds and the stages after it; `β` is what comes out of the last
channel. -/
inductive Wired (α : Type) : Type → Type 1 where
  | entry (c : Channel α) : Wired α α
  | lane {β γ : Type} (w : Wired α β) (l : Lane β γ) : Wired α γ

namespace Wired

variable {α β : Type}

/-- The number of started stages. -/
def size {β : Type} : Wired α β → Nat
  | .entry _ => 0
  | .lane w _ => w.size + 1

/-- The first channel, which the caller feeds. -/
def first {β : Type} : Wired α β → Channel α
  | .entry c => c
  | .lane w _ => w.first

/-- Changes the first channel. -/
def mapFirst (f : Channel α → Channel α) {β : Type} : Wired α β → Wired α β
  | .entry c => .entry (f c)
  | .lane w l => .lane (w.mapFirst f) l

/-- The last channel, which the caller or the next stage reads. -/
def last {β : Type} : Wired α β → Channel β
  | .entry c => c
  | .lane _ l => l.out

/-- Replaces the last channel. -/
def setLast {β : Type} : Wired α β → Channel β → Wired α β
  | .entry _, c => .entry c
  | .lane w l, c => .lane w { l with out := c }

/-- Changes the last channel. -/
def mapLast (f : Channel β → Channel β) (w : Wired α β) : Wired α β :=
  w.setLast (f w.last)

/-- Lets the thread of the stage at position `i` take one step. -/
def step (i : Nat) {β : Type} : Wired α β → Option (Wired α β)
  | .entry _ => none
  | .lane w l =>
    if i = w.size then (l.step w.last).map fun (l, c) => .lane (w.setLast c) l
    else (w.step i).map (.lane · l)

/-- How the thread of the stage at position `i` ended, if it has. -/
def exit? (i : Nat) {β : Type} : Wired α β → Option Bool
  | .entry _ => none
  | .lane w l => if i = w.size then l.worker.exit? else w.exit? i

/-- How often the function of each stage was applied, in order. -/
def calls {β : Type} : Wired α β → List Nat
  | .entry _ => []
  | .lane w l => w.calls ++ [l.calls]

/-- The steps that all threads together take at most. -/
def stepsLeft {β : Type} : Wired α β → Nat
  | .entry _ => 0
  | .lane w l => w.stepsLeft + l.worker.stepsLeft

end Wired

end Relay

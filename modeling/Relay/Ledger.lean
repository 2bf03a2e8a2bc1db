/-!
# The resource ledger

A ledger counts the channels and threads that were acquired and released. The counters only
grow. A snapshot reads them one after the other, the counters of releases first, so that one taken
while others use the ledger never shows more released than acquired (`Reading`).
-/

namespace Relay

/-- The four counters of a ledger. -/
inductive Counter where
  | channelsCreated
  | channelsDisposed
  | threadsSpawned
  | threadsJoined
  deriving DecidableEq, Repr

/-- How many channels and threads were acquired and released. -/
structure Ledger where
  channelsCreated : Nat := 0
  channelsDisposed : Nat := 0
  threadsSpawned : Nat := 0
  threadsJoined : Nat := 0
  deriving DecidableEq, Repr, Inhabited

namespace Ledger

/-- The ledger on which nothing was acquired yet. -/
def empty : Ledger := {}

/-- The value of one counter. -/
def read (l : Ledger) : Counter → Nat
  | .channelsCreated => l.channelsCreated
  | .channelsDisposed => l.channelsDisposed
  | .threadsSpawned => l.threadsSpawned
  | .threadsJoined => l.threadsJoined

/-- The ledger with one counter set to `n`. -/
def write (l : Ledger) (n : Nat) : Counter → Ledger
  | .channelsCreated => { l with channelsCreated := n }
  | .channelsDisposed => { l with channelsDisposed := n }
  | .threadsSpawned => { l with threadsSpawned := n }
  | .threadsJoined => { l with threadsJoined := n }

/-- The ledger with one counter moved up by one. -/
def bump (l : Ledger) (c : Counter) : Ledger :=
  l.write (l.read c + 1) c

/-- The channels that were created and not disposed. -/
def liveChannels (l : Ledger) : Nat := l.channelsCreated - l.channelsDisposed

/-- The threads that were spawned and not joined. -/
def liveThreads (l : Ledger) : Nat := l.threadsSpawned - l.threadsJoined

/-- Whether everything that was acquired has been released. -/
def isBalanced (l : Ledger) : Bool := l.liveChannels = 0 && l.liveThreads = 0

/-- The counters by name. -/
def describe (l : Ledger) : String :=
  s!"LedgerSnapshot \x7b channels_created: {l.channelsCreated}, " ++
  s!"channels_disposed: {l.channelsDisposed}, threads_spawned: {l.threadsSpawned}, " ++
  s!"threads_joined: {l.threadsJoined} \x7d"

end Ledger

/-- A snapshot in the making: the counters that are still to be read, in order, and what the
others held when they were read. -/
structure Reading where
  pending : List Counter := [.channelsDisposed, .threadsJoined, .channelsCreated, .threadsSpawned]
  seen : Ledger := {}
  deriving DecidableEq, Repr

namespace Reading

/-- Reads the next counter off the ledger. -/
def advance (r : Reading) (l : Ledger) : Reading :=
  match r.pending with
  | [] => r
  | c :: rest => ⟨rest, r.seen.write (l.read c) c⟩

/-- Whether all counters have been read. -/
def isDone (r : Reading) : Bool := r.pending.isEmpty

end Reading

/-- A snapshot that nothing interrupts. -/
def Ledger.snapshot (l : Ledger) : Ledger :=
  (((({} : Reading).advance l).advance l).advance l |>.advance l).seen

theorem Ledger.snapshot_eq (l : Ledger) : l.snapshot = l := rfl

end Relay

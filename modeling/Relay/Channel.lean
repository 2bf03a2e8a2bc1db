import Relay.Fault

/-!
# Bounded channels

A channel is a queue of bounded length between one sender and one receiver, either of which may
be gone. Sending is blocked while the queue is full and the receiver is there; receiving is
blocked while the queue is empty and the sender is there. What was sent can be received after the
sender is gone, and only then does the receiver see that it is.
-/

namespace Relay

/-- The capacities that a channel can have. -/
structure Capacity where
  val : Nat
  pos : 1 ≤ val := by decide
  le_max : val ≤ maxCapacity := by decide
  deriving DecidableEq

namespace Capacity

/-- The capacity `n`, or the fault that no channel has it. -/
def ofNat? (n : Nat) : Except Fault Capacity :=
  if h : 1 ≤ n ∧ n ≤ maxCapacity then .ok ⟨n, h.1, h.2⟩ else .error (.invalidCapacity n)

theorem ofNat?_val (capacity : Capacity) : ofNat? capacity.val = .ok capacity :=
  dif_pos ⟨capacity.pos, capacity.le_max⟩

/-- One value in flight: a send waits until the value before it was taken. -/
def single : Capacity := { val := 1 }

end Capacity

/-- What an attempt to use a channel comes to. -/
inductive Transfer (α : Type) where
  | done (a : α)
  /-- Nothing can be done until the other end moves. -/
  | blocked
  /-- The other end is gone. -/
  | closed
  deriving DecidableEq, Repr

/-- A bounded queue, oldest value first, and which of its ends are in use. -/
structure Channel (α : Type) where
  capacity : Nat
  queue : List α := []
  sender : Bool := true
  receiver : Bool := true
  deriving DecidableEq, Repr

namespace Channel

variable {α : Type}

/-- A new channel, empty and with both ends in use. -/
def ofCapacity (capacity : Capacity) : Channel α :=
  { capacity := capacity.val }

/-- The number of values that were sent and not received. -/
def occupancy (c : Channel α) : Nat := c.queue.length

/-- Sends a value. -/
def send (c : Channel α) (a : α) : Transfer (Channel α) :=
  if c.receiver then
    if c.queue.length < c.capacity then .done { c with queue := c.queue ++ [a] } else .blocked
  else .closed

/-- Receives the oldest value. -/
def receive (c : Channel α) : Transfer (α × Channel α) :=
  match c.queue with
  | a :: rest => .done (a, { c with queue := rest })
  | [] => if c.sender then .blocked else .closed

/-- The channel after its sender has gone. -/
def closeSender (c : Channel α) : Channel α := { c with sender := false }

/-- The channel after its receiver has gone. -/
def closeReceiver (c : Channel α) : Channel α := { c with receiver := false }

end Channel

end Relay

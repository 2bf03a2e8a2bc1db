import Relay.Channel
import Relay.Event

/-!
# Disposal records

Whoever owns a channel keeps its record and disposes it once, when no stage thread of the ledger
is live. A record that is dropped disposes itself, and warns if it cannot. Records may belong to
different ledgers, which are found by a key (`Books`); `disposeAll` disposes the records of a set
in order and stops at the first that cannot be.
-/

namespace Relay

/-- The record of one channel. -/
structure Record where
  id : Nat
  capacity : Nat
  disposed : Bool := false
  deriving DecidableEq, Repr

namespace Record

/-- Counts a new channel on the ledger. Its number is its place in the order of creation. -/
def create (capacity : Capacity) (l : Ledger) : Record × Ledger :=
  ({ id := l.channelsCreated + 1, capacity := capacity.val }, l.bump .channelsCreated)

/-- The event of the creation of a record. -/
def creation (r : Record) : Event := .created r.id r.capacity

/-- Disposes a record: once, and only while no stage thread is live. -/
def dispose (r : Record) (l : Ledger) : Except Fault (Record × Ledger) :=
  if r.disposed then .error (.doubleDispose r.id)
  else
    let live := l.snapshot.liveThreads
    if 0 < live then .error (.disposeWhileInUse r.id live)
    else .ok ({ r with disposed := true }, l.bump .channelsDisposed)

/-- Drops a record: disposes it unless that was done before, and warns if it cannot be. -/
def drop (r : Record) (l : Ledger) : Ledger × List Event :=
  if r.disposed then (l, [])
  else
    match r.dispose l with
    | .ok (r, l) => (l, [.disposed r.id])
    | .error fault => (l, [.warning fault])

end Record

/-- Ledgers by key, in the order of their first use. A key without one has the empty ledger. -/
abbrev Books (κ : Type) : Type := List (κ × Ledger)

namespace Books

variable {κ : Type} [DecidableEq κ]

/-- The ledger of a key. -/
def ledger : Books κ → κ → Ledger
  | [], _ => .empty
  | (k, l) :: rest, key => if k = key then l else ledger rest key

/-- The books with the ledger of one key replaced. -/
def update : Books κ → κ → Ledger → Books κ
  | [], key, l => [(key, l)]
  | (k, l) :: rest, key, l' => if k = key then (k, l') :: rest else (k, l) :: update rest key l'

theorem ledger_update_self (b : Books κ) (key : κ) (l : Ledger) :
    (b.update key l).ledger key = l := by
  induction b with
  | nil => simp [update, ledger]
  | cons entry rest ih =>
    obtain ⟨k, _⟩ := entry
    by_cases h : k = key <;> simp [update, ledger, h, ih]

theorem ledger_update_of_ne (b : Books κ) {key other : κ} (l : Ledger) (h : other ≠ key) :
    (b.update key l).ledger other = b.ledger other := by
  induction b with
  | nil => simp [update, ledger, h.symm]
  | cons entry rest ih =>
    obtain ⟨k, _⟩ := entry
    by_cases hk : k = key
    · simp [update, ledger, hk, h.symm]
    · simp [update, ledger, hk, ih]

end Books

/-- A record and the key of its ledger. -/
structure Filed (κ : Type) where
  key : κ
  record : Record
  deriving DecidableEq, Repr

namespace Filed

variable {κ : Type} [DecidableEq κ]

/-- Disposes a record on its own ledger. -/
def dispose (f : Filed κ) (b : Books κ) : Except Fault (Filed κ × Books κ) :=
  match f.record.dispose (b.ledger f.key) with
  | .ok (r, l) => .ok ({ f with record := r }, b.update f.key l)
  | .error fault => .error fault

/-- Drops a record on its own ledger. -/
def drop (f : Filed κ) (b : Books κ) : Books κ × List Event :=
  let (l, events) := f.record.drop (b.ledger f.key)
  (b.update f.key l, events)

end Filed

/-- What disposing a set of records leaves: the ledgers, the records in their order, the events,
and the fault that stopped it, if one did. -/
structure Disposal (κ : Type) where
  books : Books κ
  records : List (Filed κ)
  events : List Event
  fault : Option Fault

variable {κ : Type} [DecidableEq κ]

/-- Disposes the records that are not disposed yet, in order, up to the first that cannot be. -/
def disposeAll : Books κ → List (Filed κ) → Disposal κ
  | b, [] => ⟨b, [], [], none⟩
  | b, f :: rest =>
    if f.record.disposed then
      let d := disposeAll b rest
      { d with records := f :: d.records }
    else
      match f.dispose b with
      | .ok (f, b) =>
        let d := disposeAll b rest
        { d with records := f :: d.records, events := .disposed f.record.id :: d.events }
      | .error fault => ⟨b, f :: rest, [], some fault⟩

/-- Drops the records of a set, in order. -/
def dropAll : Books κ → List (Filed κ) → Books κ × List Event
  | b, [] => (b, [])
  | b, f :: rest =>
    let (b, events) := f.drop b
    let (b, later) := dropAll b rest
    (b, events ++ later)

end Relay

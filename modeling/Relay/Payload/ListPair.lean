import Relay.Payload.Basic

/-!
# Two lists of payloads

A list to work on and a saved one. A step that asks for a place beyond the end of a list panics
and changes nothing.
-/

namespace Relay

/-- A list to work on, and a saved one. -/
structure ListPair where
  current : List Payload := []
  saved : List Payload := []

/-- A step on two lists. -/
inductive ListStep where
  | clear
  | fill (items : List Payload)
  /-- The integers from `first` up to and without `last`. -/
  | range (first last : Int)
  | push (p : Payload)
  | first
  | size
  | isEmpty
  | set (i : Nat) (p : Payload)
  | get (i : Nat)
  | reverse
  | save
  | exchange
  | equal
  /-- Keeps the first `n` items and saves the rest. -/
  | splitAt (n : Nat)
  | append
  /-- The size of each item that is a list. -/
  | sizes
  | json

/-- What a step on two lists gives. -/
inductive ListAnswer where
  | nothing
  | item (p : Payload)
  | optional (p : Option Payload)
  | count (n : Nat)
  | flag (b : Bool)
  | counts (ns : List (Option Nat))
  | text (s : String)
  | panic

namespace ListPair

/-- The integers from `first` up to and without `last`, as far as payloads hold them. -/
def integers (first last : Int) : List Payload :=
  (List.range (last - first).toNat).filterMap fun (i : Nat) => Payload.ofInt? (first + i)

/-- The size of a payload that is a list. -/
def sizeOf? : Payload → Option Nat
  | .list items => some items.length
  | _ => none

/-- Takes a step. -/
def step (s : ListPair) : ListStep → ListAnswer × ListPair
  | .clear => (.nothing, { s with current := [] })
  | .fill items => (.nothing, { s with current := items })
  | .range first last => (.nothing, { s with current := integers first last })
  | .push p => (.nothing, { s with current := s.current ++ [p] })
  | .first => (.optional s.current.head?, s)
  | .size => (.count s.current.length, s)
  | .isEmpty => (.flag s.current.isEmpty, s)
  | .set i p =>
    if i < s.current.length then (.nothing, { s with current := s.current.set i p })
    else (.panic, s)
  | .get i =>
    match s.current[i]? with
    | some p => (.item p, s)
    | none => (.panic, s)
  | .reverse => (.nothing, { s with current := s.current.reverse })
  | .save => (.nothing, { s with saved := s.current })
  | .exchange => (.nothing, ⟨s.saved, s.current⟩)
  | .equal => (.flag (s.current == s.saved), s)
  | .splitAt n =>
    if n ≤ s.current.length then (.nothing, ⟨s.current.take n, s.current.drop n⟩)
    else (.panic, s)
  | .append => (.nothing, { s with current := s.current ++ s.saved })
  | .sizes => (.counts (s.current.map sizeOf?), s)
  | .json => (.text (Payload.list s.current).toJson.compact, s)

end ListPair

end Relay

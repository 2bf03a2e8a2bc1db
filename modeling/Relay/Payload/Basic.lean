import Relay.Sorting

/-!
# Payloads

A payload is a value that carries its own form, so that stages whose types are only known when a
pipeline runs can hand it on. `Payload.as?` finds the value of a form in a payload
that has that form.
-/

namespace Relay

/-- A value of any form. -/
inductive Payload where
  | unit
  | bool (b : Bool)
  | integer (i : IntKind.long.Value)
  | text (s : String)
  | list (items : List Payload)
  | left (p : Payload)
  | right (p : Payload)
  | prod (fst snd : Payload)
  deriving BEq

namespace Payload

instance : Inhabited Payload := ⟨.unit⟩

/-- The integer payload of `i`, if `i` is in range. -/
def ofInt? (i : Int) : Option Payload :=
  (IntKind.long.ofInt? i).map .integer

mutual

/-- The JSON form of a payload. -/
def toJson : Payload → Json
  | .unit => .null
  | .bool b => .bool b
  | .integer i => .ofInt i.val
  | .text s => .ofString s
  | .list items => .array (itemsToJson items)
  | .left p => .ofMembers [(Arm.left.key, p.toJson)]
  | .right p => .ofMembers [(Arm.right.key, p.toJson)]
  | .prod a b => .ofMembers [("fst", a.toJson), ("snd", b.toJson)]

/-- The JSON forms of the items of a list. -/
def itemsToJson : List Payload → List Json
  | [] => []
  | p :: rest => p.toJson :: itemsToJson rest

end

theorem int_fits_long {i : Int} (h : IntKind.int.Fits i) : IntKind.long.Fits i := by
  have := IntKind.int_fits_iff.1 h
  exact IntKind.long_fits_iff.2 (by omega)

/-- The payload of a 32-bit integer. -/
def ofInt32 (i : Int32Value) : Payload :=
  .integer ⟨i.val, int_fits_long i.property⟩

/-- The payload of a list of 32-bit integers. -/
def ofInts (l : List Int32Value) : Payload :=
  .list (l.map ofInt32)

/-- The payload of halves of 32-bit integers. -/
def ofHalves : Halves Int32Value → Payload
  | .inl (.inl ()) => .left (.left .unit)
  | .inl (.inr x) => .left (.right (ofInt32 x))
  | .inr (a, b) => .right (.prod (ofInts a) (ofInts b))

/-- The payload of a sort that may have been refused. -/
def ofChecked : Checked (List Int32Value) → Payload
  | .inl () => .left .unit
  | .inr l => .right (ofInts l)

/-- The value of a form that a payload is, if it has that form. A pair written as a list counts
as a product. -/
def as? : (f : Form) → Payload → Option f.Value
  | .unit, .unit => some ()
  | .bool, .bool b => some b
  | .integer kind, .integer i => kind.ofInt? i.val
  | .text, .text s => some s
  | .list item, .list items => items.mapM (as? item)
  | .sum l _, .left p => (as? l p).map .inl
  | .sum _ r, .right p => (as? r p).map .inr
  | .prod fst snd, .prod a b => do return (← as? fst a, ← as? snd b)
  | .prod fst snd, .list [a, b] => do return (← as? fst a, ← as? snd b)
  | _, _ => none

end Payload

end Relay

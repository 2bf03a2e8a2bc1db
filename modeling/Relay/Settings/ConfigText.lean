import Relay.Settings.Basic
import Relay.Toml.Parser

/-!
# The configuration file

What the file gives: under `settings`, a capacity, a mode and two flags. Other keys are passed
over, but a number that no 128-bit integer or finite 64-bit float can hold is a fault wherever it
stands. A file that is missing, or holds no text, counts as absent.
-/

namespace Relay

namespace Toml.Value

mutual

/-- Whether every number in a value can be held: an integer in 128 bits, and any other in 64 bits
without becoming infinite. -/
def isHeld : Value → Bool
  | .integer i => -0x80000000000000000000000000000000 ≤ i && i < 0x100000000000000000000000000000000
  | .float overflows => !overflows
  | .array items | .tables items => areHeld items
  | .table _ entries => entriesHeld entries
  | .string _ | .bool _ | .moment => true

/-- Whether every number in a list of values can be held. -/
def areHeld : List Value → Bool
  | [] => true
  | v :: rest => v.isHeld && areHeld rest

/-- Whether every number in the values of a table can be held. -/
def entriesHeld : List (Key × Value) → Bool
  | [] => true
  | (_, v) :: rest => v.isHeld && entriesHeld rest

end

/-- The capacity that a value gives. -/
def capacity? : Value → Option Nat
  | .integer (.ofNat n) => if n < 0x10000000000000000 then some n else none
  | _ => none

/-- The flag that a value gives. -/
def flag? : Value → Option Bool
  | .bool b => some b
  | _ => none

/-- Whether a value holds nothing. -/
def isEmpty : Value → Bool
  | .array items | .tables items => items.isEmpty
  | .table _ entries => entries.isEmpty
  | _ => false

/-- The mode that a value gives: its name, or a table with its name alone, over nothing. -/
def mode? : Value → Option SortMode
  | .string s => SortMode.ofName? (String.ofList s)
  | .table _ [(k, v)] => if v.isEmpty then SortMode.ofName? (String.ofList k) else none
  | _ => none

end Toml.Value

namespace Overrides

/-- Puts in one entry of the settings. -/
def add? (o : Overrides) (entry : Toml.Key × Toml.Value) : Option Overrides :=
  match String.ofList entry.1 with
  | "channel_cap" => entry.2.capacity?.map fun n => { o with capacity := some n }
  | "mode" => entry.2.mode?.map fun m => { o with mode := some m }
  | "json" => entry.2.flag?.map fun b => { o with json := some b }
  | "verbose" => entry.2.flag?.map fun b => { o with verbose := some b }
  | _ => if entry.2.isHeld then some o else none

/-- What a value overrides. An array gives all settings in their order, and a date gives none. -/
def ofValue? : Toml.Value → Option Overrides
  | .table _ entries => entries.foldlM add? {}
  | .array (capacity :: mode :: json :: verbose :: _) => do
    return ⟨some (← capacity.capacity?), some (← mode.mode?), some (← json.flag?),
      some (← verbose.flag?)⟩
  | .moment => some {}
  | _ => none

/-- What a document overrides. -/
def ofTable? (t : Toml.Table) : Option Overrides :=
  t.foldlM (fun o entry =>
    if String.ofList entry.1 = "settings" then ofValue? entry.2
    else if entry.2.isHeld then some o else none) {}

end Overrides

namespace ConfigFile

/-- The file with the given text. -/
def ofText (s : String) : ConfigFile :=
  match (Toml.parse? s.toList).bind Overrides.ofTable? with
  | some o => .settings o
  | none => .malformed

/-- The file with the given bytes, if there is one. -/
def ofBytes (content : Option ByteArray) : ConfigFile :=
  match content.bind String.fromUTF8? with
  | some s => ofText s
  | none => .absent

end ConfigFile

end Relay

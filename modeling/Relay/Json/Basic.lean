import Relay.Decimal

/-!
# JSON documents

A document is kept as it was written wherever reading it at a type can tell the difference:
numbers with a fraction or an exponent stay apart from integers, minus zero stays apart from
zero, members keep their order and repetitions, and a string may hold lone surrogate escapes,
which only matter once the string is used as text (`Json.Text.resolve?`).
-/

namespace Relay

/-- A unit of a JSON string: a character, or an escape that names half of a surrogate pair. -/
inductive Json.Piece where
  | char (c : Char)
  | surrogate (unit : Nat)
  deriving DecidableEq, Repr

/-- The contents of a JSON string, escapes resolved as far as each of them goes alone. -/
abbrev Json.Text : Type := List Json.Piece

/-- A JSON document. -/
inductive Json where
  | null
  | bool (b : Bool)
  /-- A number without fraction and exponent, with its sign and magnitude. -/
  | integer (negative : Bool) (magnitude : Nat)
  /-- A number with a fraction or an exponent, whose value nothing here asks for. -/
  | fractional
  | string (text : Json.Text)
  | array (items : List Json)
  | object (members : List (Json.Text × Json))
  deriving Repr, Inhabited

namespace Json

namespace Text

/-- The contents that stand for the string `s`. -/
def ofString (s : String) : Text :=
  s.toList.map .char

/-- Whether `unit` is the first half of a surrogate pair. -/
def isHigh (unit : Nat) : Bool := 0xD800 ≤ unit && unit < 0xDC00

/-- Whether `unit` is the second half of a surrogate pair. -/
def isLow (unit : Nat) : Bool := 0xDC00 ≤ unit && unit < 0xE000

/-- The characters that the contents stand for; `none` if a surrogate lacks its partner. -/
def resolve? : Text → Option (List Char)
  | [] => some []
  | .char c :: rest => (resolve? rest).map (c :: ·)
  | .surrogate hi :: .surrogate lo :: rest =>
    if isHigh hi && isLow lo then
      (resolve? rest).map (Char.ofNat (0x10000 + (hi - 0xD800) * 0x400 + (lo - 0xDC00)) :: ·)
    else none
  | .surrogate _ :: _ => none

/-- The contents as a string; `none` if a surrogate lacks its partner. -/
def toString? (t : Text) : Option String :=
  (resolve? t).map String.ofList

theorem resolve?_map_char (cs : List Char) : resolve? (cs.map .char) = some cs := by
  induction cs with
  | nil => rfl
  | cons c cs ih => simp [resolve?, ih]

theorem toString?_ofString (s : String) : toString? (ofString s) = some s := by
  simp [toString?, ofString, resolve?_map_char]

end Text

/-- The document of the string `s`. -/
def ofString (s : String) : Json := .string (Text.ofString s)

/-- The document of the integer `i`. -/
def ofInt (i : Int) : Json := .integer (decide (i < 0)) i.natAbs

/-- The document of the natural number `n`. -/
def ofNat (n : Nat) : Json := .integer false n

/-- An object with plain keys. -/
def ofMembers (members : List (String × Json)) : Json :=
  .object (members.map fun (key, value) => (Text.ofString key, value))

/-- Nothing, if the document denotes just that. -/
def null? : Json → Option Unit
  | .null => some ()
  | _ => none

/-- The truth value that a document denotes. -/
def bool? : Json → Option Bool
  | .bool b => some b
  | _ => none

/-- The integer that a document denotes. Minus zero is no integer. -/
def int? : Json → Option Int
  | .integer false n => some n
  | .integer true 0 => none
  | .integer true (n + 1) => some (Int.negSucc n)
  | _ => none

/-- The text that a document denotes. -/
def text? : Json → Option String
  | .string t => t.toString?
  | _ => none

theorem text?_ofString (s : String) : (ofString s).text? = some s :=
  Text.toString?_ofString s

theorem int?_ofInt (i : Int) : (ofInt i).int? = some i := by
  cases i with
  | ofNat n =>
    have hnonneg : decide (Int.ofNat n < 0) = false := by simp
    rw [ofInt, hnonneg]
    rfl
  | negSucc n => simp [ofInt, int?]

end Json

end Relay

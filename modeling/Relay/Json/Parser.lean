import Relay.Json.Basic

/-!
# Reading JSON text

`Json.parse?` reads one document with optional white space around it and nothing after it.
Numbers have no leading zeros, strings hold no raw control characters, and only the escapes of
JSON are known. Each reader takes the text and gives back what it read with the rest of the text;
`Json.readValue`, `Json.readItems` and `Json.readMembers` go down one unit of fuel at each step into
the text, and a text never needs more of it than it has characters.
-/

namespace Relay.Json

/-- The four characters that JSON allows between tokens. -/
def isBlank (c : Char) : Bool :=
  c = ' ' || c = '\n' || c = '\t' || c = '\r'

/-- The text after the white space at its front. -/
def skipBlanks (cs : List Char) : List Char :=
  cs.dropWhile isBlank

/-- The value of a hexadecimal digit of either case. -/
def hexValue? (c : Char) : Option Nat :=
  if '0' ≤ c && c ≤ '9' then some (c.toNat - '0'.toNat)
  else if 'a' ≤ c && c ≤ 'f' then some (c.toNat - 'a'.toNat + 10)
  else if 'A' ≤ c && c ≤ 'F' then some (c.toNat - 'A'.toNat + 10)
  else none

/-- The unit named by four hexadecimal digits. -/
def unit? (a b c d : Char) : Option Nat := do
  return (← hexValue? a) * 0x1000 + (← hexValue? b) * 0x100 + (← hexValue? c) * 0x10
    + (← hexValue? d)

/-- The character of a one-letter escape. -/
def shortEscape? (c : Char) : Option Char :=
  if c = '"' then some '"'
  else if c = '\\' then some '\\'
  else if c = '/' then some '/'
  else if c = 'b' then some '\x08'
  else if c = 'f' then some '\x0c'
  else if c = 'n' then some '\n'
  else if c = 'r' then some '\r'
  else if c = 't' then some '\t'
  else none

/-- The piece that an escaped unit stands for. -/
def Piece.ofUnit (unit : Nat) : Piece :=
  if 0xD800 ≤ unit && unit < 0xE000 then .surrogate unit else .char (Char.ofNat unit)

/-- Reads the contents of a string and its closing quote, after the opening quote. -/
def stringBody : List Char → Option (Text × List Char)
  | [] => none
  | '"' :: rest => some ([], rest)
  | '\\' :: 'u' :: a :: b :: c :: d :: rest => do
    let unit ← unit? a b c d
    let (t, rest) ← stringBody rest
    return (.ofUnit unit :: t, rest)
  | '\\' :: c :: rest => do
    let c ← shortEscape? c
    let (t, rest) ← stringBody rest
    return (.char c :: t, rest)
  | c :: rest =>
    if c = '\\' || c.toNat < 0x20 then none
    else (stringBody rest).map fun (t, rest) => (.char c :: t, rest)

/-- Reads the fraction of a number, if there is one. The flag says whether there was. -/
def fraction? : List Char → Option (Bool × List Char)
  | '.' :: rest =>
    match Decimal.span rest with
    | ([], _) => none
    | (_, rest) => some (true, rest)
  | rest => some (false, rest)

/-- The text after an optional sign. -/
def skipSign : List Char → List Char
  | '+' :: rest => rest
  | '-' :: rest => rest
  | rest => rest

/-- Reads the exponent of a number, if there is one. The flag says whether there was. -/
def exponent? : List Char → Option (Bool × List Char)
  | c :: rest =>
    if c = 'e' || c = 'E' then
      match Decimal.span (skipSign rest) with
      | ([], _) => none
      | (_, rest) => some (true, rest)
    else some (false, c :: rest)
  | [] => some (false, [])

/-- Reads the digits of a number before any fraction: a zero alone, or digits that start with
none. -/
def whole? (cs : List Char) : Option (Nat × List Char) :=
  match Decimal.span cs with
  | ([], _) => none
  | (c :: digits, rest) =>
    if c = '0' && !digits.isEmpty then none else some (Decimal.value (c :: digits), rest)

/-- Reads a number after its sign. -/
def unsigned? (negative : Bool) (cs : List Char) : Option (Json × List Char) := do
  let (n, rest) ← whole? cs
  let (hasFraction, rest) ← fraction? rest
  let (hasExponent, rest) ← exponent? rest
  return (if hasFraction || hasExponent then .fractional else .integer negative n, rest)

/-- Reads a number. -/
def number? : List Char → Option (Json × List Char)
  | '-' :: rest => unsigned? true rest
  | rest => unsigned? false rest

/-- The text after `word`, if it starts with it. -/
def afterWord? : List Char → List Char → Option (List Char)
  | [], cs => some cs
  | w :: word, c :: cs => if w = c then afterWord? word cs else none
  | _ :: _, [] => none

mutual

/-- Reads a document that starts at the front of the text. -/
def readValue : Nat → List Char → Option (Json × List Char)
  | 0, _ => none
  | _ + 1, [] => none
  | fuel + 1, c :: cs =>
    if c = 'n' then (afterWord? ['u', 'l', 'l'] cs).map (.null, ·)
    else if c = 't' then (afterWord? ['r', 'u', 'e'] cs).map (.bool true, ·)
    else if c = 'f' then (afterWord? ['a', 'l', 's', 'e'] cs).map (.bool false, ·)
    else if c = '"' then (stringBody cs).map fun (t, rest) => (.string t, rest)
    else if c = '[' then
      match skipBlanks cs with
      | ']' :: rest => some (.array [], rest)
      | rest => (readItems fuel rest).map fun (xs, rest) => (.array xs, rest)
    else if c = '{' then
      match skipBlanks cs with
      | '}' :: rest => some (.object [], rest)
      | rest => (readMembers fuel rest).map fun (xs, rest) => (.object xs, rest)
    else number? (c :: cs)

/-- Reads the items of an array and its closing bracket. -/
def readItems : Nat → List Char → Option (List Json × List Char)
  | 0, _ => none
  | fuel + 1, cs => do
    let (item, rest) ← readValue fuel cs
    match skipBlanks rest with
    | ',' :: rest =>
      let (others, rest) ← readItems fuel (skipBlanks rest)
      return (item :: others, rest)
    | ']' :: rest => return ([item], rest)
    | _ => none

/-- Reads the members of an object and its closing brace. -/
def readMembers : Nat → List Char → Option (List (Text × Json) × List Char)
  | fuel + 1, '"' :: cs => do
    let (key, rest) ← stringBody cs
    let ':' :: rest := skipBlanks rest | none
    let (item, rest) ← readValue fuel (skipBlanks rest)
    match skipBlanks rest with
    | ',' :: rest =>
      let (others, rest) ← readMembers fuel (skipBlanks rest)
      return ((key, item) :: others, rest)
    | '}' :: rest => return ([(key, item)], rest)
    | _ => none
  | _, _ => none

end

/-- The document that a text holds. -/
def parse? (cs : List Char) : Option Json := do
  let (j, rest) ← readValue (cs.length + 1) (skipBlanks cs)
  if (skipBlanks rest).isEmpty then some j else none

/-- The document that a string holds. -/
def ofText? (s : String) : Option Json :=
  parse? s.toList

end Relay.Json

import Relay.Json.Basic

/-!
# Compact JSON text

Documents are printed without any space. A string is quoted with the short escapes for the quote,
the backslash and the five control characters that have one, `\u00xx` in lower-case hexadecimal
for the other control characters, and every other character as itself.
-/

namespace Relay.Json

/-- The lower-case hexadecimal digit of `d`. -/
def hexDigit (d : Nat) : Char :=
  Nat.digitChar d

/-- The four hexadecimal digits of a 16-bit unit. -/
def hex4 (unit : Nat) : List Char :=
  [hexDigit (unit / 0x1000 % 16), hexDigit (unit / 0x100 % 16), hexDigit (unit / 0x10 % 16),
    hexDigit (unit % 16)]

/-- The text of one character inside quotes. -/
def escape (c : Char) : List Char :=
  if c = '"' then ['\\', '"']
  else if c = '\\' then ['\\', '\\']
  else if c = '\x08' then ['\\', 'b']
  else if c = '\x0c' then ['\\', 'f']
  else if c = '\n' then ['\\', 'n']
  else if c = '\r' then ['\\', 'r']
  else if c = '\t' then ['\\', 't']
  else if c.toNat < 0x20 then '\\' :: 'u' :: hex4 c.toNat
  else [c]

/-- The text of one unit inside quotes. -/
def Piece.print : Piece → List Char
  | .char c => escape c
  | .surrogate unit => '\\' :: 'u' :: hex4 unit

/-- The quoted text of a string. -/
def Text.print (t : Text) : List Char :=
  '"' :: t.flatMap Piece.print ++ ['"']

mutual

/-- The compact text of a document. -/
def print : Json → List Char
  | .null => ['n', 'u', 'l', 'l']
  | .bool true => ['t', 'r', 'u', 'e']
  | .bool false => ['f', 'a', 'l', 's', 'e']
  | .integer false n => Decimal.ofNat n
  | .integer true n => '-' :: Decimal.ofNat n
  | .fractional => ['0', '.', '0']
  | .string t => t.print
  | .array items => '[' :: printItems items
  | .object members => '{' :: printMembers members

/-- The items of an array, commas between them, and the closing bracket. -/
def printItems : List Json → List Char
  | [] => [']']
  | [item] => print item ++ [']']
  | item :: rest => print item ++ ',' :: printItems rest

/-- The members of an object, commas between them, and the closing brace. -/
def printMembers : List (Text × Json) → List Char
  | [] => ['}']
  | [(key, value)] => key.print ++ ':' :: print value ++ ['}']
  | (key, value) :: rest => key.print ++ ':' :: print value ++ ',' :: printMembers rest

end

/-- The compact text of a document, as a string. -/
def compact (j : Json) : String :=
  String.ofList j.print

end Relay.Json

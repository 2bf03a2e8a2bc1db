import Relay.Json.Parser

/-!
# TOML strings

The four kinds of strings of TOML, in double quotes with escapes or in single quotes without, on
one line or on several. One reader serves all of them, `contents`; it takes one character at a time
and keeps in a `Mode` what the characters before it have begun.
-/

namespace Relay.Toml

/-- Whether a character may stand in a string or a comment as it is. -/
def isPlain (c : Char) : Bool :=
  c = '\t' || (0x20 ≤ c.toNat && c.toNat ≠ 0x7F)

/-- Whether a text starts with a space, a tab or a line end. -/
def startsWithBlank : List Char → Bool
  | '\r' :: '\n' :: _ => true
  | c :: _ => c = ' ' || c = '\t' || c = '\n'
  | [] => false

/-- The text after a line end at its front, if there is one. -/
def skipLineEnd : List Char → List Char
  | '\n' :: rest => rest
  | '\r' :: '\n' :: rest => rest
  | rest => rest

/-- The character with a number, if there is one. -/
def char? (n : Nat) : Option Char :=
  if h : n.isValidChar then some (Char.ofNatAux n h) else none

/-- The character of a one-letter escape. -/
def shortEscape? (c : Char) : Option Char :=
  if c = 'b' then some '\x08'
  else if c = 't' then some '\t'
  else if c = 'n' then some '\n'
  else if c = 'f' then some '\x0c'
  else if c = 'r' then some '\r'
  else if c = 'e' then some '\x1b'
  else if c = '"' then some '"'
  else if c = '\\' then some '\\'
  else none

/-- How many hexadecimal digits follow the letter of a numeric escape. -/
def digitCount? (c : Char) : Option Nat :=
  if c = 'x' then some 2 else if c = 'u' then some 4 else if c = 'U' then some 8 else none

/-- A kind of string. -/
structure Quoting where
  quote : Char
  hasEscapes : Bool
  multiline : Bool

/-- What the characters before have begun. -/
inductive Mode where
  | plain
  /-- A backslash. -/
  | escape
  /-- A numeric escape: `missing` digits are to come, and those before make `number`. -/
  | code (missing number : Nat)
  /-- A backslash and blanks up to here, with a line end among them if `crossed`. -/
  | gap (crossed : Bool)

/-- The mode after a blank that follows a backslash: such blanks need a line end among them. -/
def Mode.afterBlank? (crossed : Bool) (rest : List Char) : Option Mode :=
  if startsWithBlank rest then some (.gap crossed) else if crossed then some .plain else none

/-- The closing quotes at the front of a text: the quotes before them that still belong to the
string, at most two, and the text after them. -/
def Quoting.close? (q : Quoting) (cs : List Char) : Option (List Char × List Char) :=
  let quotes := cs.takeWhile (· = q.quote)
  if q.multiline then
    if 3 ≤ quotes.length then
      let own := min 2 (quotes.length - 3)
      some (List.replicate own q.quote, cs.drop (own + 3))
    else none
  else if quotes.isEmpty then none else some ([], cs.drop 1)

/-- Reads the contents of a string and its closing quotes. -/
def contents (q : Quoting) : Mode → List Char → Option (List Char × List Char)
  | _, [] => none
  | .plain, c :: rest =>
    match q.close? (c :: rest) with
    | some closing => some closing
    | none =>
      if c = '\\' && q.hasEscapes then contents q .escape rest
      else if c = '\r' && q.multiline && rest.head? = some '\n' then contents q .plain rest
      else if isPlain c || (c = '\n' && q.multiline) then
        (contents q .plain rest).map fun (s, rest) => (c :: s, rest)
      else none
  | .escape, c :: rest =>
    match digitCount? c, shortEscape? c with
    | some count, _ => contents q (.code count 0) rest
    | none, some c => (contents q .plain rest).map fun (s, rest) => (c :: s, rest)
    | none, none =>
      if q.multiline && startsWithBlank (c :: rest) then do
        contents q (← Mode.afterBlank? (c = '\n') rest) rest
      else none
  | .code 0 _, _ => none
  | .code (missing + 1) number, c :: rest => do
    let number := 16 * number + (← Json.hexValue? c)
    if missing = 0 then
      let c ← char? number
      let (s, rest) ← contents q .plain rest
      return (c :: s, rest)
    else contents q (.code missing number) rest
  | .gap crossed, c :: rest => do
    contents q (← Mode.afterBlank? (crossed || c = '\n') rest) rest

/-- Reads a string on one line, if the text starts with one. -/
def lineString? : List Char → Option (List Char × List Char)
  | '"' :: rest => contents ⟨'"', true, false⟩ .plain rest
  | '\'' :: rest => contents ⟨'\'', false, false⟩ .plain rest
  | _ => none

/-- Reads a string of any kind, if the text starts with one. A line end right after the opening
quotes is not part of it. -/
def string? : List Char → Option (List Char × List Char)
  | '"' :: '"' :: '"' :: rest => contents ⟨'"', true, true⟩ .plain (skipLineEnd rest)
  | '\'' :: '\'' :: '\'' :: rest => contents ⟨'\'', false, true⟩ .plain (skipLineEnd rest)
  | rest => lineString? rest

end Relay.Toml

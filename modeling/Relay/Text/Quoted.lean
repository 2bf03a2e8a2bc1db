import Relay.Text.Hidden

/-!
# Quoted text

How messages show a piece of input: in double quotes, with the usual short escapes, and with the
number of every character that has no form of its own.
-/

namespace Relay.Text

/-- The lower-case hexadecimal digits of `n`. -/
def hex (n : Nat) : List Char :=
  Nat.toDigits 16 n

/-- How a character is shown inside quotes. -/
def showChar (c : Char) : List Char :=
  if c = '\x00' then ['\\', '0']
  else if c = '\t' then ['\\', 't']
  else if c = '\n' then ['\\', 'n']
  else if c = '\r' then ['\\', 'r']
  else if c = '"' then ['\\', '"']
  else if c = '\\' then ['\\', '\\']
  else if isHidden c then '\\' :: 'u' :: '{' :: hex c.toNat ++ ['}']
  else [c]

/-- A text in quotes. -/
def quoted (cs : List Char) : String :=
  String.ofList ('"' :: cs.flatMap showChar ++ ['"'])

end Relay.Text

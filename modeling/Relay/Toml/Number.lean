import Relay.Decimal
import Relay.Json.Parser
import Relay.Toml.Basic

/-!
# TOML numbers

Integers in four bases and floating-point numbers. Single underscores may stand between two digits,
and a decimal number has no leading zeros. A floating-point number is too large if it lies half a
unit or more above the greatest finite one, which `overflows` decides in whole numbers.
-/

namespace Relay.Toml

/-- The digits of a group in which single underscores may stand between two digits. -/
def digits? (isDigit : Char → Bool) : List Char → Option (List Char)
  | [] => none
  | [c] => if isDigit c then some [c] else none
  | c :: '_' :: rest => if isDigit c then (digits? isDigit rest).map (c :: ·) else none
  | c :: rest => if isDigit c then (digits? isDigit rest).map (c :: ·) else none

/-- The digits of a decimal number before its fraction: a zero alone, or digits that start with
none. -/
def wholeDigits? (cs : List Char) : Option (List Char) := do
  let digits ← digits? Char.isDigit cs
  if digits.head? = some '0' && digits.length ≠ 1 then none else some digits

/-- The sign of a number, if it has one, and the text after it. -/
def sign : List Char → Option Bool × List Char
  | '+' :: rest => (some false, rest)
  | '-' :: rest => (some true, rest)
  | rest => (none, rest)

/-- The base that the letter after a zero stands for. -/
def base? (c : Char) : Option Nat :=
  if c = 'x' then some 16 else if c = 'o' then some 8 else if c = 'b' then some 2 else none

/-- Whether a character is a digit of a base of at most 16. -/
def isDigitOf (base : Nat) (c : Char) : Bool :=
  match Json.hexValue? c with
  | some n => n < base
  | none => false

/-- The number that digits of a base of at most 16 stand for. -/
def numberOf (base : Nat) (digits : List Char) : Nat :=
  digits.foldl (fun n c => base * n + (Json.hexValue? c).getD 0) 0

/-- Reads an integer. Only a decimal one has a sign. -/
def integer? (cs : List Char) : Option Int :=
  match sign cs with
  | (none, '0' :: c :: rest) => do
    let base ← base? c
    return numberOf base (← digits? (isDigitOf base) rest)
  | (sign, rest) => do
    let n := Decimal.value (← wholeDigits? rest)
    return if sign = some true then -(n : Int) else n

/-- Half a unit above the greatest finite number in 64 bits. -/
def floatLimit : Nat := Nat.pow 2 1024 - Nat.pow 2 970

/-- Whether the number with these digits, times ten to the power of `exponent`, is too large to
be finite. -/
def overflows (digits : List Char) (exponent : Int) : Bool :=
  let digits := digits.dropWhile (· = '0')
  let places := digits.length + exponent
  if digits.isEmpty || places < 309 then false
  else if 309 < places then true
  else
    let n := Decimal.value digits
    match exponent with
    | .ofNat e => floatLimit ≤ n * Nat.pow 10 e
    | .negSucc e => floatLimit * Nat.pow 10 (e + 1) ≤ n

/-- Reads the exponent of a number, after the letter. -/
def exponent? (cs : List Char) : Option Int := do
  let (sign, rest) := sign cs
  let n := Decimal.value (← digits? Char.isDigit rest)
  return if sign = some true then -(n : Int) else n

/-- Reads the digits of a number before its exponent: those of the whole number, and those of the
fraction if there is one. -/
def mantissa? (cs : List Char) : Option (List Char × Option (List Char)) := do
  let whole ← wholeDigits? (cs.takeWhile (· ≠ '.'))
  match cs.dropWhile (· ≠ '.') with
  | [] => return (whole, none)
  | _ :: fraction => return (whole, some (← digits? Char.isDigit fraction))

/-- Whether a character starts an exponent. -/
def isExponent (c : Char) : Bool :=
  c = 'e' || c = 'E'

/-- Reads a floating-point number, which has a fraction, an exponent or both, or is one of the two
words. Gives whether it is too large to be finite. -/
def float? (cs : List Char) : Option Bool := do
  let (_, cs) := sign cs
  if cs = ['i', 'n', 'f'] || cs = ['n', 'a', 'n'] then return false
  let (whole, fraction) ← mantissa? (cs.takeWhile fun c => !isExponent c)
  let exponent ← match fraction, cs.dropWhile fun c => !isExponent c with
    | none, [] => none
    | some _, [] => some 0
    | _, _ :: exponent => exponent? exponent
  let fraction := fraction.getD []
  return overflows (whole ++ fraction) (exponent - fraction.length)

/-- Reads a number. -/
def number? (cs : List Char) : Option Value :=
  match integer? cs with
  | some i => some (.integer i)
  | none => (float? cs).map .float

end Relay.Toml

import Relay.Sorting
import Relay.Text.Blank
import Relay.Text.Quoted

/-!
# Lists of integers as text

Integers are read from words between white space: an optional sign and at least one decimal digit,
within the 32-bit range. They are written with single spaces between them, or as a JSON array.
The fault of a word is found reading its digits from left to right: what comes first counts, a
character that is no digit or the digit that leaves the range.
-/

namespace Relay

/-- Why a word is no 32-bit integer. -/
inductive NumeralFault where
  | invalidDigit
  | tooLarge
  | tooSmall
  deriving DecidableEq, Repr

/-- The text of the fault of a word. -/
def NumeralFault.message : NumeralFault → String
  | .invalidDigit => "invalid digit found in string"
  | .tooLarge => "number too large to fit in target type"
  | .tooSmall => "number too small to fit in target type"

/-- The first word of a text that is no integer, and why it is none. -/
structure WordFault where
  word : List Char
  cause : NumeralFault
  deriving DecidableEq, Repr

namespace WordFault

/-- Which word is wrong. -/
def message (f : WordFault) : String :=
  "not an integer: " ++ Text.quoted f.word

/-- Which word is wrong, and why. -/
def full (f : WordFault) : String :=
  f.message ++ ": " ++ f.cause.message

end WordFault

/-- Reads decimal digits on top of those read before, as long as the number is at most `limit`. -/
def readDigits (limit : Nat) (overflow : NumeralFault) :
    { n : Nat // n ≤ limit } → List Char → Except NumeralFault { n : Nat // n ≤ limit }
  | n, [] => .ok n
  | n, c :: rest =>
    if c.isDigit then
      let next := 10 * n.val + (c.toNat - '0'.toNat)
      if h : next ≤ limit then readDigits limit overflow ⟨next, h⟩ rest else .error overflow
    else .error .invalidDigit

/-- Reads a number without sign, of at least one digit. -/
def readMagnitude (limit : Nat) (overflow : NumeralFault) (cs : List Char) :
    Except NumeralFault { n : Nat // n ≤ limit } :=
  if cs.isEmpty then .error .invalidDigit
  else readDigits limit overflow ⟨0, Nat.zero_le limit⟩ cs

namespace Int32Value

/-- The integer of a magnitude. -/
def ofMagnitude (n : { n : Nat // n ≤ 2147483647 }) : Int32Value :=
  ⟨n.val, IntKind.int_fits_iff.2 (by have := n.property; omega)⟩

/-- The integer of a magnitude after a minus sign. -/
def ofNegated (n : { n : Nat // n ≤ 2147483648 }) : Int32Value :=
  ⟨-(n.val : Int), IntKind.int_fits_iff.2 (by have := n.property; omega)⟩

/-- Reads one word. -/
def ofWord : List Char → Except NumeralFault Int32Value
  | '-' :: rest => (readMagnitude 2147483648 .tooSmall rest).map ofNegated
  | '+' :: rest => (readMagnitude 2147483647 .tooLarge rest).map ofMagnitude
  | rest => (readMagnitude 2147483647 .tooLarge rest).map ofMagnitude

/-- The decimal text of an integer. -/
def text (i : Int32Value) : List Char :=
  Decimal.ofInt i.val

end Int32Value

/-- Reads all words in order; the first that is no integer counts. -/
def readWords : List (List Char) → Except WordFault (List Int32Value)
  | [] => .ok []
  | w :: rest =>
    match Int32Value.ofWord w with
    | .ok i => (readWords rest).map (i :: ·)
    | .error cause => .error ⟨w, cause⟩

/-- The integers of a text. -/
def parseIntegers (text : String) : Except WordFault (List Int32Value) :=
  readWords (Text.words text.toList)

/-- How a list of integers is written. -/
inductive OutputFormat where
  | plain
  | json
  deriving DecidableEq, Repr

/-- The text of a list of integers. -/
def formatIntegers (l : List Int32Value) : OutputFormat → String
  | .plain => String.ofList ([' '].intercalate (l.map Int32Value.text))
  | .json => Form.ints.write l

end Relay

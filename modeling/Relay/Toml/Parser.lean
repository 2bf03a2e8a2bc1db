import Relay.Toml.Moment
import Relay.Toml.Number
import Relay.Toml.Text

/-!
# Reading TOML text

`Toml.parse?` gives the table of a document. Each reader takes the text and gives back what it
read with the rest of the text. `readValue` and the readers of brackets and braces count down the
brackets that may still be opened, and go down one unit of fuel at each step into the text, of
which a text never needs more than twice the characters it has.
-/

namespace Relay.Toml

/-- How deep brackets and braces may be nested, and how many keys a dotted key may have. -/
def nestingLimit : Nat := 80

/-! ## Between the tokens -/

/-- The text after the spaces and tabs at its front. -/
def skipBlanks (cs : List Char) : List Char :=
  cs.dropWhile fun c => c = ' ' || c = '\t'

/-- The text after the blanks, line ends and comments at its front. The flag says whether a comment
is going on. -/
def skipGaps? : Bool → List Char → Option (List Char)
  | _, [] => some []
  | _, '\n' :: rest => skipGaps? false rest
  | _, '\r' :: '\n' :: rest => skipGaps? false rest
  | true, c :: rest => if isPlain c then skipGaps? true rest else none
  | false, c :: rest =>
    if c = '#' then skipGaps? true rest
    else if c = ' ' || c = '\t' then skipGaps? false rest
    else some (c :: rest)

/-- Whether a text starts with a line end or a comment, or is at its end. -/
def isLineEnd : List Char → Bool
  | [] => true
  | '\r' :: '\n' :: _ => true
  | c :: _ => c = '\n' || c = '#'

/-! ## Keys -/

/-- Whether a character may stand in a key without quotes. -/
def isBare (c : Char) : Bool :=
  c.isAlphanum || c = '_' || c = '-'

/-- Reads one key. -/
def readKey (cs : List Char) : Option (Key × List Char) :=
  match cs.takeWhile isBare with
  | [] => lineString? cs
  | key => some (key, cs.dropWhile isBare)

/-- Reads a dotted key of at most as many keys as given, with the blanks around each, and gives
all keys but the last apart from the last. -/
def readPath : Nat → List Char → Option (List Key × Key × List Char)
  | 0, _ => none
  | count + 1, cs => do
    let (key, rest) ← readKey (skipBlanks cs)
    match skipBlanks rest with
    | '.' :: rest =>
      let (path, last, rest) ← readPath count rest
      return (key :: path, last, rest)
    | rest => return ([], key, rest)

/-! ## Values -/

/-- Whether a character may stand in a number, a date or a word. -/
def isScalar (c : Char) : Bool :=
  isBare c || c = '+' || c = '.' || c = ':'

/-- The value that a run of such characters stands for. -/
def scalar? (cs : List Char) : Option Value :=
  if cs = ['t', 'r', 'u', 'e'] then some (.bool true)
  else if cs = ['f', 'a', 'l', 's', 'e'] then some (.bool false)
  else if isMoment cs then some .moment
  else number? cs

/-- Reads a number, a date or a word. A space and a time may follow a date. -/
def readScalar (cs : List Char) : Option (Value × List Char) :=
  let word := cs.takeWhile isScalar
  match afterDate? word, cs.dropWhile isScalar with
  | some [], ' ' :: c :: rest =>
    if c.isDigit then
      (scalar? (word ++ ' ' :: (c :: rest).takeWhile isScalar)).map
        (·, (c :: rest).dropWhile isScalar)
    else some (.moment, ' ' :: c :: rest)
  | _, rest => (scalar? word).map (·, rest)

mutual

/-- Reads a value. -/
def readValue (depth : Nat) : Nat → List Char → Option (Value × List Char)
  | 0, _ => none
  | fuel + 1, cs =>
    match cs, depth with
    | '[' :: _, 0 | '{' :: _, 0 => none
    | '[' :: rest, depth + 1 =>
      (readItems depth fuel rest).map fun (items, rest) => (.array items, rest)
    | '{' :: rest, depth + 1 => do
      let (pairs, rest) ← readPairs depth fuel rest
      return (.table .inline (← Table.defineAll? .inline [] pairs), rest)
    | cs, _ =>
      match string? cs with
      | some (s, rest) => some (.string s, rest)
      | none => readScalar cs

/-- Reads the items of an array and its closing bracket. A comma may follow the last item. -/
def readItems (depth : Nat) : Nat → List Char → Option (List Value × List Char)
  | 0, _ => none
  | fuel + 1, cs => do
    match ← skipGaps? false cs with
    | ']' :: rest => return ([], rest)
    | rest =>
      let (item, rest) ← readValue depth fuel rest
      match ← skipGaps? false rest with
      | ',' :: rest =>
        let (items, rest) ← readItems depth fuel rest
        return (item :: items, rest)
      | ']' :: rest => return ([item], rest)
      | _ => none

/-- Reads the pairs of an inline table and its closing brace. A comma may follow the last pair. -/
def readPairs (depth : Nat) : Nat → List Char → Option (List Pair × List Char)
  | 0, _ => none
  | fuel + 1, cs => do
    match ← skipGaps? false cs with
    | '}' :: rest => return ([], rest)
    | rest =>
      let (pair, rest) ← readPair depth fuel rest
      match ← skipGaps? false rest with
      | ',' :: rest =>
        let (pairs, rest) ← readPairs depth fuel rest
        return (pair :: pairs, rest)
      | '}' :: rest => return ([pair], rest)
      | _ => none

/-- Reads a dotted key, an equals sign and a value. -/
def readPair (depth : Nat) : Nat → List Char → Option (Pair × List Char)
  | 0, _ => none
  | fuel + 1, cs => do
    let (path, key, rest) ← readPath nestingLimit cs
    let '=' :: rest := rest | none
    let (value, rest) ← readValue depth fuel (skipBlanks rest)
    return (⟨path, key, value⟩, rest)

end

/-! ## Documents -/

/-- One line of a document that is not blank. -/
inductive Line where
  | pair (p : Pair)
  | header (h : Header)

/-- Reads a header after its first bracket. -/
def readHeader : List Char → Option (Header × List Char)
  | '[' :: cs => do
    let (path, key, rest) ← readPath nestingLimit cs
    let ']' :: ']' :: rest := rest | none
    return (.element path key, rest)
  | cs => do
    let (path, key, rest) ← readPath nestingLimit cs
    let ']' :: rest := rest | none
    return (.table path key, rest)

/-- Reads a line up to the blanks at its end. -/
def readLine : List Char → Option (Line × List Char)
  | '[' :: cs => (readHeader cs).map fun (h, rest) => (.header h, rest)
  | cs => (readPair nestingLimit (2 * cs.length + 2) cs).map fun (p, rest) => (.pair p, rest)

/-- Reads the lines of a document. -/
def readLines : Nat → List Char → Option (List Line)
  | 0, _ => none
  | fuel + 1, cs => do
    match ← skipGaps? false cs with
    | [] => return []
    | rest =>
      let (line, rest) ← readLine rest
      let rest := skipBlanks rest
      if isLineEnd rest then return line :: (← readLines fuel rest) else none

/-- The lines before the first header, and the sections after it. -/
def sections : List Line → List Pair × List Section
  | [] => ([], [])
  | .pair p :: rest => ((p :: (sections rest).1), (sections rest).2)
  | .header h :: rest => ([], ⟨h, (sections rest).1⟩ :: (sections rest).2)

/-- The text after a byte order mark at its front, if there is one. -/
def skipMark : List Char → List Char
  | c :: rest => if c = '\uFEFF' then rest else c :: rest
  | [] => []

/-- The table of a document. -/
def parse? (cs : List Char) : Option Table := do
  let (pairs, sections) := sections (← readLines (cs.length + 1) (skipMark cs))
  Table.ofSections? pairs sections

end Relay.Toml

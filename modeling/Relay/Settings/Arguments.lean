import Relay.Settings.Basic

/-!
# The command line

Integers to sort, and options among them. Options may be given in any order, each once, with a long
or a short name; short flags may share a dash, and after `--` everything is an integer. A word that
starts with a dash is a value if the rest of it looks like a number.

`Arguments.parse` reads the words from left to right. What a word begins is settled only when a
word after it needs that, or at the end, so an unknown option wins over a bad value just before it.
-/

namespace Relay

/-- Why the command line is refused. -/
inductive ArgumentFault where
  /-- A word is no integer in the range that it needs. -/
  | badNumber
  /-- A word is none of the values that an option takes, or the value is missing. -/
  | badValue
  /-- A value is given to an option that takes none. -/
  | unneededValue
  | unknownOption
  /-- An option is given twice. -/
  | repeated
  /-- The help text is asked for. -/
  | help
  deriving DecidableEq, Repr

/-- The options that set something. -/
inductive Flag where
  | mode
  | capacity
  | json
  | verbose
  deriving DecidableEq, Repr

/-- What the command line gives. -/
structure Arguments where
  values : List Int32Value := []
  overrides : Overrides := {}
  deriving DecidableEq

namespace Flag

/-- The option of a long name. -/
def ofName? (name : List Char) : Option Flag :=
  match String.ofList name with
  | "mode" => some .mode
  | "cap" => some .capacity
  | "json" => some .json
  | "verbose" => some .verbose
  | _ => none

/-- The option of a short name. -/
def ofLetter? (c : Char) : Option Flag :=
  if c = 'c' then some .capacity
  else if c = 'j' then some .json
  else if c = 'v' then some .verbose
  else none

/-- Whether the option stands for `true` when it has no value. Such an option takes a value only
after an equals sign. -/
def isSwitch : Flag → Bool
  | .json | .verbose => true
  | .mode | .capacity => false

end Flag

/-- Reads a capacity. -/
def readCapacity (word : List Char) : Except ArgumentFault Nat :=
  let digits := match word with
    | '+' :: rest => rest
    | rest => rest
  match readMagnitude 0xFFFFFFFFFFFFFFFF .tooLarge digits with
  | .ok n => .ok n.val
  | .error _ => .error .badNumber

/-- Reads the value of a switch. -/
def readSwitch : Option (List Char) → Except ArgumentFault Bool
  | none => .ok true
  | some word =>
    match String.ofList word with
    | "true" => .ok true
    | "false" => .ok false
    | _ => .error .badValue

/-- Reads a mode. -/
def readMode (word : List Char) : Except ArgumentFault SortMode :=
  match SortMode.ofName? (String.ofList word) with
  | some m => .ok m
  | none => .error .badValue

/-- Puts in the value of an option. A missing value is found before a repeated option, and that
before a bad value. -/
def Overrides.assign (o : Overrides) : Flag → Option (List Char) → Except ArgumentFault Overrides
  | .mode, some word =>
    if o.mode.isSome then .error .repeated
    else (readMode word).map fun m => { o with mode := some m }
  | .capacity, some word =>
    if o.capacity.isSome then .error .repeated
    else (readCapacity word).map fun n => { o with capacity := some n }
  | .mode, none | .capacity, none => .error .badValue
  | .json, word =>
    if o.json.isSome then .error .repeated
    else (readSwitch word).map fun b => { o with json := some b }
  | .verbose, word =>
    if o.verbose.isSome then .error .repeated
    else (readSwitch word).map fun b => { o with verbose := some b }

/-- Reads integers, each of which must be one. -/
def readValues : List (List Char) → Except ArgumentFault (List Int32Value)
  | [] => .ok []
  | w :: rest =>
    match Int32Value.ofWord w with
    | .ok i => (readValues rest).map (i :: ·)
    | .error _ => .error .badNumber

/-- What the last words have begun. -/
inductive Pending where
  | nothing
  /-- Integers, which more may follow. -/
  | values (words : List (List Char))
  /-- An option, and its value once that has come. -/
  | option (flag : Flag) (word : Option (List Char))
  deriving DecidableEq, Repr

namespace Arguments

/-- Takes in what the last words have begun. -/
def settle (a : Arguments) : Pending → Except ArgumentFault Arguments
  | .nothing => .ok a
  | .values words => (readValues words).map fun is => { a with values := a.values ++ is }
  | .option flag word => (a.overrides.assign flag word).map fun o => { a with overrides := o }

/-- Takes in an option with the value that it has in its own word, or begins it if the value is to
come. -/
def give (a : Arguments) (p : Pending) (flag : Flag) (word : Option (List Char)) :
    Except ArgumentFault (Arguments × Pending) := do
  let a ← a.settle p
  if word.isNone && !flag.isSwitch then return (a, .option flag none)
  return (← a.settle (.option flag word), .nothing)

/-- Takes in what the last words have begun, and then asks for help. -/
def askHelp (a : Arguments) (p : Pending) : Except ArgumentFault (Arguments × Pending) :=
  (a.settle p).bind fun _ => .error .help

/-- Reads an option with a long name, after the dashes. -/
def readLong (a : Arguments) (p : Pending) (cs : List Char) :
    Except ArgumentFault (Arguments × Pending) :=
  let name := cs.takeWhile (· ≠ '=')
  let word := match cs.dropWhile (· ≠ '=') with
    | [] => none
    | _ :: word => some word
  match Flag.ofName? name with
  | some flag => a.give p flag word
  | none =>
    if String.ofList name = "help" then
      if word.isSome then .error .unneededValue else a.askHelp p
    else .error .unknownOption

/-- Reads options with short names, after the dash. -/
def readShort (a : Arguments) (p : Pending) :
    List Char → Except ArgumentFault (Arguments × Pending)
  | [] => .ok (a, p)
  | c :: rest =>
    match Flag.ofLetter? c, rest with
    | some flag, '=' :: word => a.give p flag (some word)
    | some flag, rest =>
      if flag.isSwitch then do
        let (a, p) ← a.give p flag none
        a.readShort p rest
      else a.give p flag (if rest.isEmpty then none else some rest)
    | none, _ => if c = 'h' then a.askHelp p else .error .unknownOption

/-- Takes a word as an integer. -/
def readInteger (a : Arguments) (p : Pending) (word : List Char) :
    Except ArgumentFault (Arguments × Pending) :=
  match p with
  | .values words => .ok (a, .values (words ++ [word]))
  | p => (a.settle p).map (·, .values [word])

/-- Takes a word as the value of the option before it, or else as an integer. -/
def readPlain (a : Arguments) (p : Pending) (word : List Char) :
    Except ArgumentFault (Arguments × Pending) :=
  match p with
  | .option flag none => .ok (a, .option flag (some word))
  | p => a.readInteger p word

/-- Whether a word holds digits, with at most one point after the first of them. -/
def isMantissa (cs : List Char) : Bool :=
  !cs.isEmpty && cs.head? ≠ some '.' && cs.count '.' ≤ 1 && cs.all fun c => c.isDigit || c = '.'

/-- Whether a word looks like a number, perhaps with an exponent. -/
def isNumeric (cs : List Char) : Bool :=
  isMantissa (cs.takeWhile (· ≠ 'e')) &&
    match cs.dropWhile (· ≠ 'e') with
    | [] => true
    | _ :: exponent => !exponent.isEmpty && exponent.all Char.isDigit

/-- Reads the words from left to right. The flag says whether `--` has come. -/
def readAll (trailing : Bool) (a : Arguments) (p : Pending) :
    List (List Char) → Except ArgumentFault Arguments
  | [] => a.settle p
  | word :: rest =>
    if trailing then do
      let (a, p) ← a.readInteger p word
      readAll true a p rest
    else match word with
      | ['-', '-'] => readAll true a p rest
      | '-' :: '-' :: cs => do
        let (a, p) ← a.readLong p cs
        readAll false a p rest
      | '-' :: c :: cs => do
        let (a, p) ← if isNumeric (c :: cs) then a.readPlain p word else a.readShort p (c :: cs)
        readAll false a p rest
      | _ => do
        let (a, p) ← a.readPlain p word
        readAll false a p rest

/-- What the words of a command line give. -/
def parse (words : List String) : Except ArgumentFault Arguments :=
  readAll false {} .nothing (words.map String.toList)

end Arguments

end Relay

import Relay.Settings.Arguments
import Relay.Settings.ConfigText

/-!
# The sorting program

What the program does with its arguments, its configuration file and its input: the integers of
the command line, or of the input if there are none there, go through the pipeline that the
settings choose, and come out in order. `Program.run` is the whole of it but for reading and
printing.
-/

namespace Relay

/-- Why the program fails. -/
inductive ProgramFault where
  /-- The input is not text. -/
  | input
  | word (f : WordFault)
  | run (e : RunError)
  deriving DecidableEq, Repr

namespace ProgramFault

/-- The texts of a fault, from the outermost context to the cause. -/
def chain : ProgramFault → List String
  | .input => ["read integers from stdin", "stream did not contain valid UTF-8"]
  | .word f => [f.message, f.cause.message]
  | .run e => e.chain

/-- Causes, each with its number before it. -/
def numbered (causes : List String) : List String :=
  causes.mapIdx fun i cause => "".pushn ' ' (5 - (Decimal.ofNat i).length) ++ s!"{i}: {cause}"

/-- The lines of a list of causes. They have numbers if there are several. -/
def causeLines : List String → List String
  | [] => []
  | [cause] => ["", "Caused by:", "    " ++ cause]
  | causes => ["", "Caused by:"] ++ numbered causes

/-- The lines that report a fault. -/
def lines (f : ProgramFault) : List String :=
  match f.chain with
  | [] => []
  | message :: causes => ("Error: " ++ message) :: causeLines causes

end ProgramFault

/-- What the program leaves: its exit code, its output, and the lines of its error output. -/
structure Exit where
  code : Nat
  output : String
  notes : List String
  deriving DecidableEq, Repr

namespace Program

/-- The line of a message of the program. -/
def note (text : String) : String :=
  s!"[{programName}] " ++ text

/-- The line of a warning, with the part of the program that it comes from. -/
def warning (source text : String) : String :=
  s!"[{programName} WARN {programName}::{source}] " ++ text

/-- The warning that a configuration file is passed over. -/
def ignored (directory : String) : String :=
  "ignoring " ++ directory ++ "/" ++ configName

/-- The line of an event, if it is shown. -/
def eventLine? (verbose : Bool) (e : Event) : Option String :=
  match e.level with
  | .trace => none
  | .debug => if verbose then some (note e.text) else none
  | .warn => some (warning "pipeline" e.text)

/-- The integers of an input. -/
def readInput (bytes : ByteArray) : Except ProgramFault (List Int32Value) :=
  match String.fromUTF8? bytes with
  | none => .error .input
  | some s => (parseIntegers s).mapError .word

/-- The integers to sort: those of the command line if there are any. -/
def values (a : Arguments) (input : ByteArray) : Except ProgramFault (List Int32Value) :=
  if a.values.isEmpty then readInput input else .ok a.values

/-- What the program leaves of a run. A run that unwinds takes the program down. -/
def finish (s : Settings) (notes : List String) : Option (Ending (List Int32Value)) → Exit
  | some (.returned l) => ⟨0, formatIntegers l s.format ++ "\n", notes⟩
  | some (.failed e) => ⟨1, "", notes ++ (ProgramFault.run e).lines⟩
  | some .unwound | none => ⟨101, "", notes⟩

/-- Sorts integers. -/
def sort (s : Settings) (notes : List String) (l : List Int32Value) : Exit :=
  let report := s.run l
  let log := Event.sorting l.length :: report.log
  finish s (notes ++ log.filterMap (eventLine? s.verbose)) report.ending

/-- Runs the program on arguments that were accepted. -/
def run (a : Arguments) (file : ConfigFile) (directory : String) (input : ByteArray) : Exit :=
  let s := Settings.resolve a.overrides file
  let notes :=
    if file.isIgnored then [warning "engine::handlers" (ignored directory)] else []
  match values a input with
  | .error f => ⟨1, "", notes ++ f.lines⟩
  | .ok l => sort s notes l

end Program

end Relay

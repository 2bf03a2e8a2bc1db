import Relay.Program

/-!
# The command

Reads the arguments, the configuration file of the working directory and, if there are no integers
among the arguments, the standard input; then prints what `Program.run` leaves.
-/

namespace Relay

/-- How the program is called. -/
def usage : String :=
  "Usage: " ++ programName ++
    " [--mode sort|merge] [--cap N] [--json[=true|false]] [--verbose[=true|false]] [INTS...]"

/-- Why arguments are refused, in words. -/
def ArgumentFault.message : ArgumentFault → String
  | .badNumber => "a number is expected"
  | .badValue => "an option has a missing or unknown value"
  | .unneededValue => "an option that takes no value has one"
  | .unknownOption => "an option is not known"
  | .repeated => "an option is given twice"
  | .help => "help is asked for"

/-- Reads a stream to its end. -/
partial def readAll (stream : IO.FS.Stream) (before : ByteArray) : IO ByteArray := do
  let more ← stream.read 65536
  if more.isEmpty then return before
  readAll stream (before ++ more)

/-- The bytes of a file, if it can be read. -/
def readFile? (path : String) : IO (Option ByteArray) := do
  try
    return some (← IO.FS.readBinFile path)
  catch _ =>
    return none

/-- Runs the command. -/
def command (words : List String) : IO UInt32 := do
  match Arguments.parse words with
  | .error .help =>
    IO.println usage
    return 0
  | .error fault =>
    IO.eprintln ("error: " ++ fault.message)
    IO.eprintln usage
    return 2
  | .ok a =>
    let file := ConfigFile.ofBytes (← readFile? configName)
    let input ← if a.values.isEmpty then readAll (← IO.getStdin) .empty else pure .empty
    let exit := Program.run a file (← IO.currentDir).toString input
    for line in exit.notes do
      IO.eprintln line
    IO.print exit.output
    return exit.code.toUInt32

end Relay

/-- The entry point. -/
def main (words : List String) : IO UInt32 :=
  Relay.command words

import Relay.SortPipeline
import Relay.Text.Integers

/-!
# Settings of the sorting program

Every setting has a default, which the configuration file may override, and the command line may
override both. The layers are applied one after the other, each setting on its own
(`Overrides.apply`), and a file that cannot be understood overrides nothing
(`Settings.resolve_malformed`).
-/

namespace Relay

/-- Which pipeline sorts. -/
inductive SortMode where
  | sort
  | merge
  deriving DecidableEq, Repr

namespace SortMode

/-- The word for a mode. -/
def name : SortMode → String
  | .sort => "sort"
  | .merge => "merge"

/-- The mode of a word. -/
def ofName? (name : String) : Option SortMode :=
  if name = "sort" then some .sort else if name = "merge" then some .merge else none

/-- The pipeline of a mode. -/
def pipeline : SortMode → Pipeline (List Int32Value) (List Int32Value)
  | .sort => sortPipeline
  | .merge => mergeSortPipeline

theorem ofName?_name (m : SortMode) : ofName? m.name = some m := by
  cases m <;> decide

end SortMode

/-- The settings that the program runs with. -/
structure Settings where
  capacity : Nat := defaultCapacity
  mode : SortMode := .sort
  json : Bool := false
  verbose : Bool := false
  deriving DecidableEq, Repr

/-- Settings that one layer gives. -/
structure Overrides where
  capacity : Option Nat := none
  mode : Option SortMode := none
  json : Option Bool := none
  verbose : Option Bool := none
  deriving DecidableEq, Repr

/-- The settings with those of a layer put in. -/
def Overrides.apply (o : Overrides) (s : Settings) : Settings where
  capacity := o.capacity.getD s.capacity
  mode := o.mode.getD s.mode
  json := o.json.getD s.json
  verbose := o.verbose.getD s.verbose

/-- What is known of the configuration file. -/
inductive ConfigFile where
  /-- There is no file, or it cannot be read as text. -/
  | absent
  /-- The file cannot be understood. -/
  | malformed
  | settings (o : Overrides)
  deriving DecidableEq, Repr

/-- The name of the configuration file. -/
def configName : String := "." ++ programName ++ ".toml"

namespace ConfigFile

/-- What the file overrides. -/
def overrides : ConfigFile → Overrides
  | .settings o => o
  | _ => {}

/-- Whether the file is passed over with a warning. -/
def isIgnored : ConfigFile → Bool
  | .malformed => true
  | _ => false

end ConfigFile

namespace Settings

/-- The settings from the defaults, the file and the command line. -/
def resolve (commandLine : Overrides) (file : ConfigFile) : Settings :=
  commandLine.apply (file.overrides.apply {})

/-- The options for the pipeline. -/
def pipelineOptions (s : Settings) : PipelineOptions := { capacity := s.capacity }

theorem resolve_malformed (commandLine : Overrides) :
    resolve commandLine .malformed = resolve commandLine .absent := rfl

/-- How the result is written. -/
def format (s : Settings) : OutputFormat := if s.json then .json else .plain

/-- Runs the pipeline that the settings choose. -/
def run (s : Settings) (input : List Int32Value) : Report (List Int32Value) :=
  let report := s.mode.pipeline.runWith input s.pipelineOptions
  { report with log := .running s.mode.pipeline.stageNames s.capacity :: report.log }

end Settings

end Relay

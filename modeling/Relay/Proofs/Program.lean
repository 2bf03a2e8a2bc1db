import Relay.Program
import Relay.Proofs.Settings.Arguments
import Relay.Proofs.Settings.Layers

/-!
# What the program prints

A call of the program (`Call`) is a command line that is accepted, a configuration file, a working
directory and a standard input. `Call.prints_sorted_integers` says whether a call succeeds and what
it prints, by the integers that it is given, and by what the command line and the file say of the
capacity and the format.

* `Call.settings_capacity`, `Call.settings_format`: what the program runs with, by command line,
  file and default;
* `Call.same_output`: calls that sort the same integers print the same, in whatever order, mode and
  capacity;
* `Call.exists_append_texts`: the integers of the input may as well be given on the command line.
-/

namespace Relay

/-- A call of the program: a command line that is accepted, the configuration file if there is one,
the working directory, and the standard input. -/
structure Call where
  words : List String
  arguments : Arguments
  accepted : Arguments.parse words = .ok arguments
  file : Option ByteArray
  directory : String
  input : ByteArray

namespace Call

/-- What the configuration file gives, which is nothing if it is not understood. -/
def fileOverrides (c : Call) : Overrides := (ConfigFile.ofBytes c.file).overrides

/-- The capacity of the command line, or else of the file, or else one. -/
def capacity (c : Call) : Nat :=
  (c.arguments.overrides.capacity.or c.fileOverrides.capacity).getD 1

/-- The mode of the command line, or else of the file, or else sorting in one stage. -/
def mode (c : Call) : SortMode :=
  (c.arguments.overrides.mode.or c.fileOverrides.mode).getD .sort

/-- JSON if the command line, or else the file, says so. -/
def format (c : Call) : OutputFormat :=
  if (c.arguments.overrides.json.or c.fileOverrides.json).getD false then .json else .plain

/-- The settings that the program runs with. -/
def settings (c : Call) : Settings :=
  .resolve c.arguments.overrides (.ofBytes c.file)

/-- The integers that are sorted. -/
def integers (c : Call) : Except ProgramFault (List Int32Value) :=
  Program.values c.arguments c.input

/-- What the program leaves. -/
def exit (c : Call) : Exit :=
  Program.run c.arguments (.ofBytes c.file) c.directory c.input

/-- A channel can have the capacity of the call. -/
def InRange (c : Call) : Prop := 1 ≤ c.capacity ∧ c.capacity ≤ 65536

/-- The program fails, prints nothing, and reports a fault after whatever else it notes. -/
def FailsWith (c : Call) (f : ProgramFault) : Prop :=
  c.exit.code = 1 ∧ c.exit.output = "" ∧ f.lines <:+ c.exit.notes

/-- The program succeeds and prints a line. -/
def Prints (c : Call) (line : String) : Prop :=
  c.exit.code = 0 ∧ c.exit.output = line ++ "\n" ∧ '\n' ∉ line.toList

variable {c c' : Call} {l l' : List Int32Value}

/-! ## What the program runs with -/

theorem settings_capacity (c : Call) : c.settings.capacity = c.capacity :=
  Settings.value_resolve c.arguments.overrides (.ofBytes c.file) .capacity

theorem settings_mode (c : Call) : c.settings.mode = c.mode :=
  Settings.value_resolve c.arguments.overrides (.ofBytes c.file) .mode

theorem settings_format (c : Call) : c.settings.format = c.format := by
  have hjson : c.settings.json = _ :=
    Settings.value_resolve c.arguments.overrides (.ofBytes c.file) .json
  rw [Settings.format, hjson]
  rfl

theorem settings_inRange (h : c.InRange) : c.settings.CapacityInRange := by
  rwa [Settings.CapacityInRange, settings_capacity]

/-- The integers of the command line are sorted if there are any. -/
theorem integers_of_ne_nil (h : c.arguments.values ≠ []) : c.integers = .ok c.arguments.values :=
  if_neg fun hempty => h (List.isEmpty_iff.mp hempty)

/-- The integers of the input are sorted if there are none on the command line. -/
theorem integers_of_eq_nil {text : String} (h : c.arguments.values = [])
    (hinput : c.input = text.toUTF8) : c.integers = (parseIntegers text).mapError .word := by
  rw [integers, Program.values, if_pos (List.isEmpty_iff.mpr h), hinput, Program.readInput,
    fromUTF8?_toUTF8]

theorem integers_of_not_text (h : c.arguments.values = [])
    (hinput : String.fromUTF8? c.input = none) : c.integers = .error .input := by
  rw [integers, Program.values, if_pos (List.isEmpty_iff.mpr h), Program.readInput, hinput]

/-! ## What the program leaves -/

theorem exit_of_ok (h : c.integers = .ok l) :
    ∃ notes, c.exit = Program.sort c.settings notes l := by
  rw [integers] at h
  exact ⟨_, by rw [exit, Program.run, h]; rfl⟩

theorem failsWith_of_error {f : ProgramFault} (h : c.integers = .error f) : c.FailsWith f := by
  rw [integers] at h
  rw [FailsWith, exit, Program.run, h]
  exact ⟨rfl, rfl, List.suffix_append _ _⟩

theorem failsWith_of_not_inRange (h : c.integers = .ok l) (hrange : ¬ c.InRange) :
    c.FailsWith (.run ⟨[], .invalidCapacity c.capacity⟩) := by
  obtain ⟨notes, hexit⟩ := exit_of_ok h
  rw [InRange, ← settings_capacity] at hrange
  rw [FailsWith, hexit, Program.sort, Settings.run_of_not_capacity hrange, settings_capacity]
  exact ⟨rfl, rfl, List.suffix_append _ _⟩

theorem prints_of_inRange (h : c.integers = .ok l) (hrange : c.InRange) :
    c.Prints (formatIntegers (sort IntKind.Value.le l) c.format) := by
  obtain ⟨notes, hexit⟩ := exit_of_ok h
  rw [Prints, hexit, Program.sort, Settings.run_of_capacity (settings_inRange hrange),
    ← settings_format]
  exact ⟨rfl, rfl, newline_not_mem_format _ _⟩

/-- Two calls with the same integers and settings, in the same directory, leave the same. -/
theorem exit_congr (harguments : c.arguments.overrides = c'.arguments.overrides)
    (hfile : c.file = c'.file) (hdirectory : c.directory = c'.directory)
    (hintegers : c.integers = c'.integers) : c.exit = c'.exit := by
  unfold Call.integers at hintegers
  rw [exit, exit, Program.run, Program.run, hintegers, harguments, hfile, hdirectory]

/-- The integers of the input may as well be given on the command line. -/
theorem exists_append_texts {text : String} (hnone : c.arguments.values = []) (hl : l ≠ [])
    (hinput : c.input = text.toUTF8)
    (htext : Text.words text.toList = l.map Int32Value.text) (input : ByteArray) :
    ∃ c' : Call, c'.words = c.words ++ l.map (fun i => String.ofList i.text) ∧
      c'.file = c.file ∧ c'.directory = c.directory ∧ c'.input = input ∧ c'.exit = c.exit := by
  let c' : Call :=
    ⟨_, _, Arguments.parse_append_texts hl c.accepted hnone, c.file, c.directory, input⟩
  have hintegers : c'.integers = c.integers := by
    rw [integers_of_eq_nil hnone hinput, parseIntegers_of_words htext]
    exact integers_of_ne_nil (c := c') hl
  exact ⟨c', rfl, rfl, rfl, rfl, exit_congr rfl rfl rfl hintegers⟩

/-- Two calls that sort the same integers, in whatever order they are given, print the same line. -/
theorem same_output (h : c.integers = .ok l) (h' : c'.integers = .ok l') (hperm : l.Perm l')
    (hrange : c.InRange) (hrange' : c'.InRange) (hformat : c'.format = c.format) :
    c'.exit.code = c.exit.code ∧ c'.exit.output = c.exit.output := by
  obtain ⟨hcode, houtput, -⟩ := prints_of_inRange h hrange
  obtain ⟨hcode', houtput', -⟩ := prints_of_inRange h' hrange'
  rw [hcode, hcode', houtput, houtput', sort_eq_of_perm hperm, hformat]
  exact ⟨rfl, rfl⟩

/-! ## The law of a call -/

/-- What holds of a call of the program. -/
structure Law (c : Call) : Prop where
  /-- The integers of the command line are sorted if there are any. -/
  values : c.arguments.values ≠ [] → c.integers = .ok c.arguments.values
  /-- Otherwise those of the input are, -/
  text : ∀ text : String, c.arguments.values = [] → c.input = text.toUTF8 →
    c.integers = (parseIntegers text).mapError .word
  /-- which must be a text. -/
  no_text : c.arguments.values = [] → String.fromUTF8? c.input = none → c.integers = .error .input
  unread : ∀ input : ByteArray, c.arguments.values ≠ [] → { c with input }.exit = c.exit
  /-- Faulty integers come before a capacity that no channel can have. -/
  faulty : ∀ f, c.integers = .error f → c.FailsWith f
  refused : ∀ l, c.integers = .ok l → ¬ (1 ≤ c.capacity ∧ c.capacity ≤ 65536) →
    c.FailsWith (.run ⟨[], .invalidCapacity c.capacity⟩)
  /-- Whatever the schedule, the integers are printed in order. -/
  prints : ∀ l, c.integers = .ok l → 1 ≤ c.capacity → c.capacity ≤ 65536 →
    ∃ sorted : List Int32Value, sorted.Perm l ∧ sorted.Pairwise (fun a b => a.val ≤ b.val) ∧
      c.mode.pipeline.ReturnsWith { capacity := c.capacity } l sorted ∧
      c.Prints (formatIntegers sorted c.format)
  /-- The mode and the capacity do not matter to what is printed, nor does the order of the
  integers, -/
  same_output : ∀ (c' : Call) (l l' : List Int32Value), c.integers = .ok l → c'.integers = .ok l' →
    l.Perm l' → c.InRange → c'.InRange → c'.format = c.format →
    c'.exit.code = c.exit.code ∧ c'.exit.output = c.exit.output
  /-- and the mode and the capacity of the command line do not matter to the format. -/
  same_format : ∀ c' : Call, c'.arguments.overrides.json = c.arguments.overrides.json →
    c'.file = c.file → c'.format = c.format
  /-- The words of the input may as well be given on the command line. -/
  moved : ∀ (l : List Int32Value) (text : String) (input : ByteArray),
    c.arguments.values = [] → l ≠ [] → c.input = text.toUTF8 →
    Text.words text.toList = l.map Int32Value.text →
    ∃ c' : Call, c'.words = c.words ++ l.map (fun i => String.ofList i.text) ∧
      c'.file = c.file ∧ c'.directory = c.directory ∧ c'.input = input ∧ c'.exit = c.exit

/-- **The program prints the sorted integers**, those of the command line or else of the input.
Faulty integers make it fail, and so does a capacity that no channel can have, in this order. Other
than that, one line is printed, and whatever the schedule it is the integers in order. The capacity
and the format are those of the command line, or else of the file, or else the default. So the
input does not matter if there are integers on the command line, nor does the mode, the capacity or
the order of the integers, nor whether the words of the input are given on the command line. -/
theorem prints_sorted_integers (c : Call) : c.Law where
  values := integers_of_ne_nil
  text _ := integers_of_eq_nil
  no_text := integers_of_not_text
  unread input hvalues := by
    refine exit_congr rfl rfl rfl ?_
    rw [integers_of_ne_nil hvalues, integers_of_ne_nil (c := { c with input }) hvalues]
  faulty _ := failsWith_of_error
  refused _ := failsWith_of_not_inRange
  prints l hintegers hmin hmax := by
    have hreturns := Settings.returnsWith_of_capacity (settings_inRange ⟨hmin, hmax⟩) l
    rw [settings_mode, Settings.pipelineOptions, settings_capacity] at hreturns
    exact ⟨_, sort_perm l, sort_sorted l, hreturns, prints_of_inRange hintegers ⟨hmin, hmax⟩⟩
  same_output _ _ _ := same_output
  same_format c' hjson hfile := by rw [format, format, fileOverrides, fileOverrides, hjson, hfile]
  moved _ _ input hnone hl hinput htext := exists_append_texts hnone hl hinput htext input

/-- A configuration file with a capacity of zero, which gives the other mode and JSON. -/
def specimenText : String := "[settings]\nchannel_cap = 0\nmode = \"merge\"\njson = true\n"

/-- A call that asks for JSON and gives a capacity, where the file has one of zero. -/
def specimen : Call where
  words := ["--json", "--cap", "3", "2", "-1", "2"]
  arguments := ⟨[⟨2, by decide⟩, ⟨-1, by decide⟩, ⟨2, by decide⟩],
    { capacity := some 3, json := some true }⟩
  accepted := by decide +kernel
  file := some specimenText.toUTF8
  directory := "/"
  input := .empty

/-- A call with the same integers in another order in its input, without a file. -/
def specimenInput : Call where
  words := ["-j"]
  arguments := { overrides := { json := some true } }
  accepted := by decide +kernel
  file := none
  directory := "/"
  input := " -1\n2 2".toUTF8

/-- A call with the capacity of the file. -/
def specimenRefused : Call where
  words := ["--json=false", "2", "1"]
  arguments := ⟨[⟨2, by decide⟩, ⟨1, by decide⟩], { json := some false }⟩
  accepted := by decide +kernel
  file := some specimenText.toUTF8
  directory := "/"
  input := .empty

/-- A call with a capacity of zero and a faulty input. -/
def specimenFault : Call where
  words := ["--cap=0"]
  arguments := { overrides := { capacity := some 0 } }
  accepted := by decide +kernel
  file := none
  directory := "/"
  input := "1 x".toUTF8

theorem fileOverrides_specimenText (h : c.file = some specimenText.toUTF8) :
    c.fileOverrides = { capacity := some 0, mode := some .merge, json := some true } := by
  obtain ⟨t, hparses⟩ : ∃ t, ConfigFile.Parses specimenText t
      { capacity := some 0, mode := some .merge, json := some true } :=
    Option.bind_eq_some_iff.mp (by cbv)
  have hread : ConfigFile.text? (some specimenText.toUTF8) = some specimenText :=
    fromUTF8?_toUTF8 specimenText
  rw [fileOverrides, h]
  exact ConfigFile.overrides_of_parses hread hparses

theorem prints_sorted_integers_specimen :
    specimen.Prints "[-1,2,2]" ∧ specimenInput.exit.output = specimen.exit.output ∧
    specimenRefused.FailsWith (.run ⟨[], .invalidCapacity 0⟩) ∧
    specimenFault.FailsWith (.word ⟨['x'], .invalidDigit⟩) := by
  have hintegers := (prints_sorted_integers specimen).values nofun
  have hcapacity : specimen.capacity = 3 := rfl
  have hformat : specimen.format = .json := rfl
  have hintegers' : specimenInput.integers =
      .ok [⟨-1, by decide⟩, ⟨2, by decide⟩, ⟨2, by decide⟩] := by
    rw [(prints_sorted_integers specimenInput).text " -1\n2 2" rfl rfl]
    decide +kernel
  have hperm : specimen.arguments.values.Perm
      [⟨-1, by decide⟩, ⟨2, by decide⟩, ⟨2, by decide⟩] := by decide
  refine ⟨?_, ?_, ?_, ?_⟩
  · obtain ⟨sorted, hperm', hsorted, -, hprints⟩ :=
      (prints_sorted_integers specimen).prints _ hintegers (by decide) (by decide)
    rw [eq_of_sorted (hperm'.trans hperm) hsorted (by decide), hformat] at hprints
    exact hprints
  · exact ((prints_sorted_integers specimen).same_output specimenInput _ _ hintegers hintegers'
      hperm ⟨by decide, by decide⟩ ⟨by decide, by decide⟩ rfl).2
  · have hrefused : specimenRefused.capacity = 0 := by
      rw [capacity, fileOverrides_specimenText rfl]
      rfl
    rw [← hrefused]
    refine (prints_sorted_integers specimenRefused).refused _
      ((prints_sorted_integers specimenRefused).values nofun) ?_
    rw [hrefused]
    decide
  · have hfault : specimenFault.integers = .error (.word ⟨['x'], .invalidDigit⟩) := by
      rw [(prints_sorted_integers specimenFault).text "1 x" rfl rfl]
      decide +kernel
    exact (prints_sorted_integers specimenFault).faulty _ hfault

end Call

end Relay

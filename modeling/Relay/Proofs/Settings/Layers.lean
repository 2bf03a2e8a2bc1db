import Mathlib
import Relay.Proofs.Settings.Run
import Relay.Settings.Arguments
import Relay.Settings.ConfigText

/-!
# Layers of settings

Each of the four settings is looked up by itself: on the command line, then in the configuration
file, then among the defaults. `Settings.value`, `Overrides.value?` and `Flag.ofToml?` say for all
four at once what the settings, a layer and a value of the file hold for one of them.

* `Settings.value_resolve`: where the value of a setting comes from;
* `Overrides.value?_of_entries`: what the entries of a table of settings set;
* `ConfigFile.isIgnored_iff`: which files are passed over;
* `Settings.resolves_in_layers`: the law of the layers.
-/

namespace Relay

/-! ## One setting at a time -/

namespace Flag

/-- What a setting is set to. -/
@[reducible]
def Value : Flag → Type
  | .mode => SortMode
  | .capacity => Nat
  | .json | .verbose => Bool

/-- The key of a setting in the configuration file. -/
def key : Flag → Toml.Key
  | .mode => "mode".toList
  | .capacity => "channel_cap".toList
  | .json => "json".toList
  | .verbose => "verbose".toList

/-- What a value in the configuration file sets a setting to. -/
def ofToml? : (f : Flag) → Toml.Value → Option f.Value
  | .mode => Toml.Value.mode?
  | .capacity => Toml.Value.capacity?
  | .json | .verbose => Toml.Value.flag?

end Flag

/-- What a layer sets a setting to, if it does. -/
def Overrides.value? (o : Overrides) : (f : Flag) → Option f.Value
  | .mode => o.mode
  | .capacity => o.capacity
  | .json => o.json
  | .verbose => o.verbose

/-- What a setting is set to. -/
def Settings.value (s : Settings) : (f : Flag) → f.Value
  | .mode => s.mode
  | .capacity => s.capacity
  | .json => s.json
  | .verbose => s.verbose

@[simp]
theorem Overrides.value?_empty (f : Flag) : ({} : Overrides).value? f = none := by
  cases f <;> rfl

theorem Overrides.value_apply (o : Overrides) (s : Settings) (f : Flag) :
    (o.apply s).value f = (o.value? f).getD (s.value f) := by
  cases f <;> rfl

namespace Settings

variable {s s' : Settings} {commandLine commandLine' : Overrides} {file file' : ConfigFile}

theorem ext_value (h : ∀ f, s.value f = s'.value f) : s = s' := by
  obtain ⟨capacity, mode, json, verbose⟩ := s
  congr
  exacts [h .capacity, h .mode, h .json, h .verbose]

/-- A setting has the value of the command line, or else of the file, or else its default. -/
theorem value_resolve (commandLine : Overrides) (file : ConfigFile) (f : Flag) :
    (resolve commandLine file).value f =
      ((commandLine.value? f).or (file.overrides.value? f)).getD (({} : Settings).value f) := by
  rw [resolve, Overrides.value_apply, Overrides.value_apply, Option.getD_or]

theorem value_resolve_of_given {f : Flag} {v : f.Value} (hgiven : commandLine.value? f = some v) :
    (resolve commandLine file).value f = v := by
  rw [value_resolve, hgiven, Option.some_or, Option.getD_some]

theorem value_resolve_of_missing {f : Flag} {v : f.Value} (hmissing : commandLine.value? f = none)
    (hset : file.overrides.value? f = some v) : (resolve commandLine file).value f = v := by
  rw [value_resolve, hmissing, hset, Option.none_or, Option.getD_some]

/-- The other settings do not matter to a setting. -/
theorem value_resolve_congr {f : Flag} (hgiven : commandLine'.value? f = commandLine.value? f)
    (hset : file'.overrides.value? f = file.overrides.value? f) :
    (resolve commandLine' file').value f = (resolve commandLine file).value f := by
  rw [value_resolve, value_resolve, hgiven, hset]

/-- What the file sets a setting to does not matter if the command line gives it. -/
theorem resolve_congr_of_given {f : Flag} (hgiven : (commandLine.value? f).isSome)
    (hothers : ∀ g, g ≠ f → file'.overrides.value? g = file.overrides.value? g) :
    resolve commandLine file' = resolve commandLine file := by
  refine ext_value fun g => ?_
  by_cases hsame : g = f
  · subst hsame
    obtain ⟨v, hgiven⟩ := Option.isSome_iff_exists.mp hgiven
    rw [value_resolve_of_given hgiven, value_resolve_of_given hgiven]
  · exact value_resolve_congr rfl (hothers g hsame)

end Settings

/-! ## What a document sets -/

/-- Read from its end, a table shows its last entry first. -/
theorem Toml.Table.get?_reverse_append (t : Toml.Table) (entry : Toml.Key × Toml.Value)
    (k : Toml.Key) :
    get? (t ++ [entry]).reverse k = if entry.1 = k then some entry.2 else get? t.reverse k := by
  by_cases hnamed : entry.1 = k <;> simp [get?, hnamed]

theorem Flag.key_injective : Function.Injective Flag.key := by
  intro f g
  cases f <;> cases g <;> decide +kernel

namespace Overrides

variable {o o' : Overrides} {entry : Toml.Key × Toml.Value}

/-- The layer with one setting set. -/
def set (o : Overrides) : (f : Flag) → f.Value → Overrides
  | .mode, m => { o with mode := some m }
  | .capacity, n => { o with capacity := some n }
  | .json, b => { o with json := some b }
  | .verbose, b => { o with verbose := some b }

@[simp]
theorem value?_set_self (o : Overrides) (f : Flag) (v : f.Value) :
    (o.set f v).value? f = some v := by
  cases f <;> rfl

theorem value?_set_of_ne (o : Overrides) {f g : Flag} (v : f.Value) (h : g ≠ f) :
    (o.set f v).value? g = o.value? g := by
  cases f <;> cases g <;> first | rfl | exact absurd rfl h

theorem add?_of_key {f : Flag} (h : entry.1 = f.key) :
    o.add? entry = (f.ofToml? entry.2).map (o.set f) := by
  obtain ⟨_, v⟩ := entry
  subst h
  cases f <;> rfl

theorem add?_of_ne_key (h : ∀ f : Flag, entry.1 ≠ f.key) :
    o.add? entry = if entry.2.isHeld then some o else none := by
  have hother : ∀ f : Flag, String.ofList entry.1 ≠ String.ofList f.key := fun f hsame =>
    h f (String.ofList_injective hsame)
  rw [add?]
  split
  · exact absurd ‹_› (hother .capacity)
  · exact absurd ‹_› (hother .mode)
  · exact absurd ‹_› (hother .json)
  · exact absurd ‹_› (hother .verbose)
  · rfl

/-- One entry sets the setting of its key, and leaves the others alone. -/
theorem value?_of_add? (h : o.add? entry = some o') (f : Flag) :
    o'.value? f = if entry.1 = f.key then f.ofToml? entry.2 else o.value? f := by
  by_cases hknown : ∃ g : Flag, entry.1 = g.key
  · obtain ⟨g, hnamed⟩ := hknown
    rw [add?_of_key hnamed] at h
    obtain ⟨v, hgiven, rfl⟩ := Option.map_eq_some_iff.mp h
    rw [hnamed]
    by_cases hsame : f = g
    · subst hsame
      rw [value?_set_self, if_pos rfl, hgiven]
    · rw [value?_set_of_ne o v hsame, if_neg fun hkeys => hsame (Flag.key_injective hkeys).symm]
  · rw [add?_of_ne_key fun g hnamed => hknown ⟨g, hnamed⟩] at h
    obtain rfl : o = o' := Option.some_inj.mp (Option.ite_none_right_eq_some.mp h).2
    rw [if_neg fun hnamed => hknown ⟨f, hnamed⟩]

/-- What the entries of a table of settings set. A table has a key once; if it came again, the last
value would count. -/
theorem value?_of_entries {entries : Toml.Table} (h : entries.foldlM add? {} = some o) (f : Flag) :
    o.value? f = (Toml.Table.get? entries.reverse f.key).bind f.ofToml? := by
  induction entries using List.reverseRecOn generalizing o with
  | nil =>
    obtain rfl : ({} : Overrides) = o := Option.some_inj.mp h
    exact value?_empty f
  | append_singleton entries entry ih =>
    rw [List.foldlM_append] at h
    obtain ⟨before, hfirst, hlast⟩ := Option.bind_eq_some_iff.mp h
    rw [value?_of_add? (o := before) (by simpa using hlast) f, ih hfirst,
      Toml.Table.get?_reverse_append]
    split <;> rfl

/-- What a document gives is what stands under `settings`, and nothing without it. -/
theorem ofTable?_eq_some {t : Toml.Table} (h : ofTable? t = some o) :
    (Toml.Table.get? t.reverse "settings".toList = none → o = {}) ∧
      ∀ v, Toml.Table.get? t.reverse "settings".toList = some v → ofValue? v = some o := by
  induction t using List.reverseRecOn generalizing o with
  | nil =>
    obtain rfl : ({} : Overrides) = o := Option.some_inj.mp h
    exact ⟨fun _ => rfl, nofun⟩
  | append_singleton t entry ih =>
    rw [ofTable?, List.foldlM_append] at h
    obtain ⟨before, hfirst, hlast⟩ := Option.bind_eq_some_iff.mp h
    replace hlast : (if String.ofList entry.1 = "settings" then ofValue? entry.2
        else if entry.2.isHeld then some before else none) = some o := by simpa using hlast
    rw [Toml.Table.get?_reverse_append]
    by_cases hnamed : entry.1 = "settings".toList
    · rw [if_pos (by rw [hnamed, String.ofList_toList])] at hlast
      rw [if_pos hnamed]
      exact ⟨nofun, fun v hfound => Option.some_inj.mp hfound ▸ hlast⟩
    · have hother : String.ofList entry.1 ≠ "settings" := fun hsame =>
        hnamed (by rw [← hsame, String.toList_ofList])
      rw [if_neg hother] at hlast
      obtain rfl : before = o := Option.some_inj.mp (Option.ite_none_right_eq_some.mp hlast).2
      rw [if_neg hnamed]
      exact ih hfirst

end Overrides

/-! ## The configuration file -/

/-- A text that was written as bytes is read back. -/
theorem fromUTF8?_toUTF8 (text : String) : String.fromUTF8? text.toUTF8 = some text :=
  dif_pos text.isValidUTF8

namespace ConfigFile

/-- The text of the file, if there is one that can be read. -/
def text? (content : Option ByteArray) : Option String :=
  content.bind String.fromUTF8?

/-- A text is a document, and its settings are understood. -/
def Parses (text : String) (t : Toml.Table) (o : Overrides) : Prop :=
  Toml.parse? text.toList = some t ∧ Overrides.ofTable? t = some o

variable {content : Option ByteArray} {text : String} {t : Toml.Table} {o : Overrides}

theorem ofBytes_of_unreadable (h : text? content = none) : ofBytes content = .absent := by
  rw [text?] at h
  rw [ofBytes, h]

theorem ofBytes_of_text (h : text? content = some text) : ofBytes content = ofText text := by
  rw [text?] at h
  rw [ofBytes, h]

theorem ofText_of_parses (h : Parses text t o) : ofText text = .settings o := by
  rw [ofText, h.1, Option.bind_some, h.2]

theorem ofText_of_not_parses (h : ¬ ∃ t o, Parses text t o) : ofText text = .malformed := by
  rw [ofText]
  split
  case h_1 o hgiven =>
    obtain ⟨t, hdocument, hunderstood⟩ := Option.bind_eq_some_iff.mp hgiven
    exact absurd ⟨t, o, hdocument, hunderstood⟩ h
  case h_2 => rfl

/-- The files that are passed over are those that can be read and not understood. -/
theorem isIgnored_iff : (ofBytes content).isIgnored = true ↔
    ∃ text, text? content = some text ∧ ¬ ∃ t o, Parses text t o := by
  constructor
  · intro hignored
    match hread : text? content with
    | none => simp [ofBytes_of_unreadable hread, isIgnored] at hignored
    | some text =>
      refine ⟨text, rfl, fun ⟨t, o, hparses⟩ => ?_⟩
      simp [ofBytes_of_text hread, ofText_of_parses hparses, isIgnored] at hignored
  · rintro ⟨text, hread, hfails⟩
    rw [ofBytes_of_text hread, ofText_of_not_parses hfails, isIgnored]

theorem overrides_of_parses (hread : text? content = some text) (hparses : Parses text t o) :
    (ofBytes content).overrides = o := by
  rw [ofBytes_of_text hread, ofText_of_parses hparses]
  rfl

/-- A table of settings sets what its entries set, and a document without one sets nothing. -/
theorem value?_of_parses (h : Parses text t o) (f : Flag) :
    (Toml.Table.get? t.reverse "settings".toList = none → o.value? f = none) ∧
      ∀ origin entries,
        Toml.Table.get? t.reverse "settings".toList = some (.table origin entries) →
        o.value? f = (Toml.Table.get? entries.reverse f.key).bind f.ofToml? := by
  obtain ⟨hwithout, hwithin⟩ := Overrides.ofTable?_eq_some h.2
  refine ⟨fun hmissing => ?_, fun origin entries hfound => ?_⟩
  · rw [hwithout hmissing, Overrides.value?_empty]
  · exact Overrides.value?_of_entries (hwithin _ hfound) f

/-- What is understood of the content of a file. -/
structure Understood (content : Option ByteArray) : Prop where
  /-- A file that is missing or holds no text counts as absent. -/
  absent : text? content = none → ofBytes content = .absent
  /-- A document gives what the entries of its table of settings set, and nothing without one. -/
  given : ∀ text t o, text? content = some text → Parses text t o →
    (ofBytes content).overrides = o ∧ ∀ f,
      (Toml.Table.get? t.reverse "settings".toList = none → o.value? f = none) ∧
      ∀ origin entries,
        Toml.Table.get? t.reverse "settings".toList = some (.table origin entries) →
        o.value? f = (Toml.Table.get? entries.reverse f.key).bind f.ofToml?
  /-- A file is passed over if it can be read and not understood. -/
  ignored : (ofBytes content).isIgnored = true ↔
    ∃ text, text? content = some text ∧ ¬ ∃ t o, Parses text t o

theorem Understood.of_content (content : Option ByteArray) : Understood content where
  absent := ofBytes_of_unreadable
  given _ _ _ hread hparses := ⟨overrides_of_parses hread hparses, value?_of_parses hparses⟩
  ignored := isIgnored_iff

end ConfigFile

/-! ## The law of the layers -/

namespace Settings

/-- What holds of the settings from a command line and a file. -/
structure Layered (commandLine : Overrides) (file : ConfigFile) : Prop where
  value : ∀ f, (resolve commandLine file).value f =
    ((commandLine.value? f).or (file.overrides.value? f)).getD (({} : Settings).value f)
  /-- `false` is given like any other value. -/
  json_false : commandLine.json = some false → (resolve commandLine file).json = false
  verbose_false : commandLine.verbose = some false → (resolve commandLine file).verbose = false
  /-- The other settings do not matter. -/
  independent : ∀ (commandLine' : Overrides) (file' : ConfigFile) (f : Flag),
    commandLine'.value? f = commandLine.value? f →
    file'.overrides.value? f = file.overrides.value? f →
    (resolve commandLine' file').value f = (resolve commandLine file).value f
  /-- Nothing of a file that is passed over counts. -/
  ignored : file.isIgnored = true → resolve commandLine file = resolve commandLine .absent
  /-- The capacity of the file does not matter if the command line gives one. -/
  overridden : ∀ n, commandLine.capacity = some n →
    (resolve commandLine file).capacity = n ∧
    (∀ file' : ConfigFile,
      (∀ f, f ≠ .capacity → file'.overrides.value? f = file.overrides.value? f) →
      resolve commandLine file' = resolve commandLine file) ∧
    (1 ≤ n → n ≤ 65536 → ∀ l,
      ((resolve commandLine file).run l).ending = some (.returned (sort IntKind.Value.le l)))
  /-- Otherwise one that no channel can have ends the run before there is a channel or a thread. -/
  outside : ∀ n, commandLine.capacity = none → file.overrides.capacity = some n →
    ¬ (1 ≤ n ∧ n ≤ 65536) → ∀ l,
    (resolve commandLine file).run l =
      { ending := some (.failed ⟨[], .invalidCapacity n⟩)
        ledger := .empty
        log := [.running (resolve commandLine file).mode.pipeline.stageNames n]
        calls := List.replicate (resolve commandLine file).mode.pipeline.length 0 }

theorem layered (commandLine : Overrides) (file : ConfigFile) : Layered commandLine file where
  value := value_resolve commandLine file
  json_false hgiven := value_resolve_of_given (f := .json) hgiven
  verbose_false hgiven := value_resolve_of_given (f := .verbose) hgiven
  independent commandLine' file' f := value_resolve_congr
  ignored hignored := by
    cases file with
    | malformed => exact resolve_malformed commandLine
    | absent | settings => cases hignored
  overridden n hgiven := by
    have hcapacity : (resolve commandLine file).capacity = n :=
      value_resolve_of_given (f := .capacity) hgiven
    refine ⟨hcapacity, fun file' hothers => ?_, fun hmin hmax => ?_⟩
    · exact resolve_congr_of_given (f := .capacity) (Option.isSome_of_eq_some hgiven) hothers
    · exact run_of_capacity ⟨hcapacity ▸ hmin, hcapacity ▸ hmax⟩
  outside n hmissing hset hrange l := by
    obtain rfl : (resolve commandLine file).capacity = n :=
      value_resolve_of_missing (f := .capacity) hmissing hset
    exact report_of_not_capacity hrange l

/-- **Each setting comes from the highest layer that gives it**: the command line, then the file if
it is understood as a whole, then the defaults. `false` and zero are given like any other value, and
the other settings do not matter. A file that can be read and not understood is passed over with a
warning, and then counts as absent. A capacity that no channel can have does not matter in the file
if the command line gives another one; otherwise the run fails before there is a channel or a
thread. -/
theorem resolves_in_layers (commandLine : Overrides) (content : Option ByteArray) :
    (∀ file, Layered commandLine file) ∧ ConfigFile.Understood content :=
  ⟨layered commandLine, .of_content content⟩

/-- A capacity of zero and a flag in the file, which the command line overrides or not, and a file
with a mode that there is not. -/
theorem resolves_in_layers_specimen :
    let l : List Int32Value := [⟨2, by decide⟩, ⟨-1, by decide⟩]
    let sorted : List Int32Value := [⟨-1, by decide⟩, ⟨2, by decide⟩]
    let commandLine : Overrides := { capacity := some 3, json := some false }
    let content := some "[settings]\nchannel_cap = 0\njson = true\n".toUTF8
    let file := ConfigFile.ofBytes content
    let faulty := some "[settings]\njson = true\nmode = \"bogus\"\n".toUTF8
    (file.overrides.capacity = some 0 ∧ file.overrides.value? .json = some true) ∧
    ((resolve commandLine file).json = false ∧
      ((resolve commandLine file).run l).ending = some (.returned sorted)) ∧
    ((resolve {} file).json = true ∧
      ((resolve {} file).run l).ending = some (.failed ⟨[], .invalidCapacity 0⟩) ∧
      ((resolve {} file).run l).ledger = .empty) ∧
    (ConfigFile.ofBytes faulty).isIgnored = true ∧
      (resolve commandLine (.ofBytes faulty)).mode = .sort := by
  intro l sorted commandLine content file faulty
  have hreadable (text : String) : ConfigFile.text? (some text.toUTF8) = some text :=
    fromUTF8?_toUTF8 text
  have hsorted : sort IntKind.Value.le l = sorted :=
    eq_of_sorted ((sort_perm l).trans (by decide)) (sort_sorted l) (by decide)
  obtain ⟨hlayered, hunderstood⟩ := resolves_in_layers commandLine content
  obtain ⟨t, hparses⟩ : ∃ t, ConfigFile.Parses "[settings]\nchannel_cap = 0\njson = true\n" t
      { capacity := some 0, json := some true } :=
    Option.bind_eq_some_iff.mp (by cbv)
  have hoverrides : file.overrides = { capacity := some 0, json := some true } :=
    (hunderstood.given _ _ _ (hreadable _) hparses).1
  have hcapacity : file.overrides.capacity = some 0 := by rw [hoverrides]
  have hjson : file.overrides.value? .json = some true := by
    rw [hoverrides]
    rfl
  have hignored : (ConfigFile.ofBytes faulty).isIgnored = true := by
    refine (resolves_in_layers commandLine faulty).2.ignored.mpr ⟨_, hreadable _, ?_⟩
    rintro ⟨t, o, hdocument, hgiven⟩
    have hfails : (Toml.parse? "[settings]\njson = true\nmode = \"bogus\"\n".toList).bind
        Overrides.ofTable? = none := by cbv
    rw [hdocument, Option.bind_some, hgiven] at hfails
    cases hfails
  refine ⟨⟨hcapacity, hjson⟩, ⟨(hlayered file).json_false rfl, ?_⟩, ⟨?_, ?_⟩, hignored, ?_⟩
  · rw [← hsorted]
    exact ((hlayered file).overridden 3 rfl).2.2 (by decide) (by decide) l
  · have hvalue := ((resolves_in_layers {} content).1 file).value .json
    rwa [hjson] at hvalue
  · rw [((resolves_in_layers {} content).1 file).outside 0 rfl hcapacity (by decide) l]
    exact ⟨rfl, rfl⟩
  · rw [(hlayered _).ignored hignored]
    rfl

end Settings

end Relay

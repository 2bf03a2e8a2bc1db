import Relay.Proofs.Form.Denotation
import Relay.Proofs.Form.Layout

/-!
# Values and the texts that stand for them

The text of a value is read back as the value, and whatever text a value is read from, it is written
in one way.

* `Form.denotes_encode`, `Form.prints_encode`: the document of a value denotes it, and the text of a
  value spaces the tokens of the document;
* `Form.read?_write`: a value is read back from its text;
* `Form.canonical?_canonical`: a canonical text is its own canonical form;
* `Form.write_round_trip`: the round trips of values and of texts.
-/

namespace Relay

namespace Form

/-! ## Documents -/

/-- The document of a value denotes it. -/
theorem denotes_encode (f : Form) (v : f.Value) : f.Denotes (f.encode v) v := by
  induction f with
  | unit => rfl
  | bool => rfl
  | integer kind =>
    change kind.Value at v
    exact int?_eq_some_iff.mp (Json.int?_ofInt v.val)
  | text => exact ⟨_, rfl, .ofString v⟩
  | list item ih =>
    change List item.Value at v
    exact ⟨_, rfl, List.forall₂_map_left_iff.mpr (List.forall₂_same.mpr fun x _ => ih x)⟩
  | sum left right ihl ihr =>
    rcases v with a | b
    · exact ⟨_, _, rfl, .ofString Arm.left.key, ihl a⟩
    · exact ⟨_, _, rfl, .ofString Arm.right.key, ihr b⟩
  | prod fst snd iha ihb =>
    obtain ⟨a, b⟩ := v
    exact ⟨_, _, .members (.ofString "fst") (.ofString "snd") (by simp) (.refl _), iha a, ihb b⟩

/-! ## Texts -/

/-- The text of a value spaces the tokens of its document. -/
theorem prints_encode (f : Form) (v : f.Value) : (f.encode v).Prints := by
  induction f with
  | unit => exact .null
  | bool => exact .bool v
  | integer kind => exact .integer _ _
  | text => exact .ofString v
  | list item ih =>
    change List item.Value at v
    refine .array fun j hj => ?_
    obtain ⟨x, -, rfl⟩ := List.mem_map.mp hj
    exact ih x
  | sum left right ihl ihr =>
    rcases v with a | b
    · exact .ofMembers (List.forall_mem_singleton.mpr (ihl a))
    · exact .ofMembers (List.forall_mem_singleton.mpr (ihr b))
  | prod fst snd iha ihb =>
    obtain ⟨a, b⟩ := v
    exact .ofMembers (List.forall_mem_cons.mpr ⟨iha a, List.forall_mem_singleton.mpr (ihb b)⟩)

theorem ofText?_write (f : Form) (v : f.Value) : Json.ofText? (f.write v) = some (f.encode v) := by
  rw [write, Json.ofText?, Json.compact, String.toList_ofList, (f.prints_encode v).parse?]

/-- **A value is read back from its text if it nests no deeper than the reader goes.** -/
theorem read?_write (f : Form) (v : f.Value) (hshallow : f.nesting v ≤ maxDepth) :
    f.read? (f.write v) = some v := by
  rw [read?, ofText?_write]
  exact f.decodeWithin?_eq_some_iff.mpr ⟨f.denotes_encode v, hshallow⟩

/-- A text that is read holds a value that nests no deeper than the reader goes. -/
theorem nesting_le_of_read? (f : Form) {text : String} {v : f.Value}
    (hread : f.read? text = some v) : f.nesting v ≤ maxDepth :=
  (f.read?_eq_some_iff.mp hread).2

/-! ## Round trips -/

/-- The text that a form writes for what it reads in a text. -/
def canonical? (f : Form) (text : String) : Option String :=
  (f.read? text).map f.write

/-- A canonical text denotes what the text that it was made of denotes, and it is canonical. -/
theorem canonical?_canonical (f : Form) {text canon : String}
    (h : f.canonical? text = some canon) :
    f.read? canon = f.read? text ∧ f.canonical? canon = some canon := by
  obtain ⟨v, hread, rfl⟩ := Option.map_eq_some_iff.mp h
  have hback : f.read? (f.write v) = some v := f.read?_write v (f.nesting_le_of_read? hread)
  exact ⟨by rw [hback, hread], by rw [canonical?, hback, Option.map_some]⟩

/-- **What is written is read back, and what is read is written in one way.** A value of a form
that nests no deeper than the reader goes is read back from its text, which is laid out as
`layout` says and has no blank outside its strings. A text that is accepted has a canonical form,
which denotes the same value and is its own canonical form. -/
theorem write_round_trip (f : Form) (hshallow : f.depth ≤ maxDepth) :
    (∀ v, f.read? (f.write v) = some v ∧
      f.write v = String.ofList (f.layout v) ∧
      ∀ c ∈ outside false (f.write v).toList, Json.isBlank c = false) ∧
    ∀ text v, f.read? text = some v → ∃ canon, f.canonical? text = some canon ∧
      f.read? canon = some v ∧ f.canonical? canon = some canon := by
  refine ⟨fun v => ⟨?_, f.write_eq_layout v, f.isBlank_of_mem_outside v⟩, fun text v hread => ?_⟩
  · exact f.read?_write v (Nat.le_trans (f.nesting_le_depth v) hshallow)
  · have hcanonical : f.canonical? text = some (f.write v) := by
      rw [canonical?, hread, Option.map_some]
    obtain ⟨hsame, hfixed⟩ := f.canonical?_canonical hcanonical
    exact ⟨f.write v, hcanonical, hsame.trans hread, hfixed⟩

/-- Texts paired with lists of small integers and gaps. -/
def specimen : Form :=
  .prod .text (.list (.sum (.integer .char) .unit))

/-- A value with characters that a text escapes and an integer at the end of its range. -/
def specimenValue : specimen.Value :=
  ("\"\\\x07", [.inl ⟨-128, by decide⟩, .inr ()])

/-- Another text of the value: the product as a pair, blanks, and an escape that is not needed. -/
def specimenText : String :=
  "[ \"\\\"\\u005c\\u0007\", [\x7b\"Left\": -128\x7d, \x7b\"Right\": null\x7d] ]"

theorem write_round_trip_specimen :
    specimen.depth ≤ maxDepth ∧
    specimen.read? (specimen.write specimenValue) = some specimenValue ∧
    ∃ canon, specimen.canonical? specimenText = some canon ∧
      specimen.read? canon = some specimenValue ∧ specimen.canonical? canon = some canon := by
  have hshallow : specimen.depth ≤ maxDepth := by decide
  have hread : specimen.read? specimenText = some specimenValue := by decide +kernel
  obtain ⟨hvalues, htexts⟩ := specimen.write_round_trip hshallow
  exact ⟨hshallow, (hvalues specimenValue).1, htexts specimenText specimenValue hread⟩

example : specimen.write specimenValue =
    "\x7b\"fst\":\"\\\"\\\\\\u0007\",\"snd\":[\x7b\"Left\":-128\x7d,\x7b\"Right\":null\x7d]\x7d" := by
  decide +kernel

end Form

end Relay

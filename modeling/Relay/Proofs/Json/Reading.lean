import Relay.Json.Printer
import Relay.Proofs.Json.Grammar

/-!
# Reading printed JSON back

The text that is printed of a document spaces its tokens, whatever stands behind it (`Json.Prints`).
This is shown of each kind of document from its parts:

* `Prints.of_leaf`, `Prints.ofString`: the documents without parts. Every character of a string is
  spelled by its escape (`Contents.escape`);
* `Prints.array`, `Prints.ofMembers`: the documents with parts, by induction on the parts.

`Prints.parse?` concludes that the text is read as the document.
-/

namespace Relay.Json

/-! ## Strings -/

/-- The digits of a control character name it. -/
theorem namesUnit_hex4 {u : Nat} (hcontrol : u < 0x20) :
    NamesUnit (hexDigit (u / 0x1000 % 16)) (hexDigit (u / 0x100 % 16)) (hexDigit (u / 0x10 % 16))
      (hexDigit (u % 16)) u := by
  have hall : ∀ u < 0x20, unit? (hexDigit (u / 0x1000 % 16)) (hexDigit (u / 0x100 % 16))
      (hexDigit (u / 0x10 % 16)) (hexDigit (u % 16)) = some u := by decide
  exact unit?_eq_some_iff.mp (hall u hcontrol)

/-- A character is written as a short escape, as the digits of its code, or as itself. -/
theorem escape_cases (c : Char) :
    (∃ d, escape c = ['\\', d] ∧ shortEscape? d = some c) ∨
    (escape c = '\\' :: 'u' :: hex4 c.toNat ∧ c.toNat < 0x20) ∨
    (escape c = [c] ∧ c ≠ '"' ∧ c ≠ '\\' ∧ ¬ c.toNat < 0x20) := by
  unfold escape
  iterate 7
    split
    next hspecial => subst hspecial; exact .inl ⟨_, rfl, rfl⟩
  split
  next hcontrol => exact .inr (.inl ⟨rfl, hcontrol⟩)
  next hprinted => exact .inr (.inr ⟨rfl, ‹_›, ‹_›, hprinted⟩)

/-- The escape of a character spells it. -/
theorem Contents.escape (c : Char) {t : Text} {cs : List Char} (h : Contents t cs) :
    Contents (.char c :: t) (escape c ++ cs) := by
  obtain ⟨d, hwritten, hshort⟩ | ⟨hwritten, hcontrol⟩ | ⟨hwritten, hquote, hslash, hprinted⟩ :=
    escape_cases c
  · rw [hwritten]
    exact .short (shortEscape?_eq_some_iff.mp hshort) h
  · have hspelled : Contents (.char (Char.ofNat c.toNat) :: t) (Json.escape c ++ cs) := by
      rw [hwritten]
      exact .unit (namesUnit_hex4 hcontrol) (by omega) h
    rwa [Char.ofNat_toNat] at hspelled
  · rw [hwritten]
    exact .raw hquote hslash (Nat.not_lt.mp hprinted) h

theorem Contents.ofString (s : String) :
    Contents (Text.ofString s) ((Text.ofString s).flatMap Piece.print) := by
  rw [Text.ofString]
  induction s.toList with
  | nil => exact .nil
  | cons c cs ih => exact .escape c ih

theorem Leaf.Spells.ofString (s : String) :
    Leaf.Spells (.string (Text.ofString s)) (Text.ofString s).print :=
  .string (.ofString s)

/-! ## The texts of arrays and objects -/

theorem printItems_cons_cons (j next : Json) (js : List Json) :
    printItems (j :: next :: js) = j.print ++ ',' :: printItems (next :: js) :=
  rfl

/-- Members with plain keys. -/
def plain (members : List (String × Json)) : List (Text × Json) :=
  members.map fun (key, value) => (Text.ofString key, value)

theorem Mark.endsRun (m : Mark) (rest : List Char) : Decimal.EndsRun (m.char :: rest) := by
  intro c hc
  cases hc
  cases m <;> rfl

/-! ## Documents -/

/-- A document whose text spaces its tokens, whatever stands behind it. -/
structure Prints (j : Json) : Prop where
  spaced : ∀ {ts : List Token} {rest : List Char}, Spaced ts rest → Decimal.EndsRun rest →
    Spaced (j.tokens ++ ts) (j.print ++ rest)

namespace Prints

variable {ts : List Token} {rest : List Char}

theorem of_leaf {l : Leaf} (hspells : l.Spells l.json.print) : Prints l.json := by
  refine ⟨fun hbehind hends => ?_⟩
  rw [l.tokens_json]
  exact .token (.leaf hspells) (fun _ => hends) hbehind

theorem null : Prints .null :=
  of_leaf (l := .null) .null

theorem bool : (b : Bool) → Prints (.bool b)
  | true => of_leaf (l := .bool true) .yes
  | false => of_leaf (l := .bool false) .no

theorem integer (negative : Bool) (n : Nat) : Prints (.integer negative n) := by
  have hspells := Leaf.Spells.integer negative n
  cases negative <;> exact of_leaf (l := .integer _ n) hspells

theorem ofString (s : String) : Prints (.ofString s) :=
  of_leaf (l := .string (Text.ofString s)) (.ofString s)

theorem items {js : List Json} (hparts : ∀ j ∈ js, Prints j) (hbehind : Spaced ts rest) :
    Spaced (itemTokens js ++ ts) (printItems js ++ rest) := by
  induction js with
  | nil => exact .cons_mark .closeArray hbehind
  | cons j js ih =>
    obtain ⟨hfirst, hothers⟩ := List.forall_mem_cons.mp hparts
    cases js with
    | nil =>
      rw [itemTokens, printItems, List.append_assoc, List.append_assoc]
      exact hfirst.spaced (.cons_mark .closeArray hbehind) (Mark.endsRun .closeArray rest)
    | cons next js =>
      rw [itemTokens_cons_cons, printItems_cons_cons, List.append_assoc, List.append_assoc]
      exact hfirst.spaced (.cons_mark .comma (ih hothers)) (Mark.endsRun .comma _)

theorem array {js : List Json} (hparts : ∀ j ∈ js, Prints j) : Prints (.array js) :=
  ⟨fun hbehind _ => .cons_mark .openArray (items hparts hbehind)⟩

/-- A member is its key, a colon and its value. -/
theorem member {j : Json} (key : String) (hvalue : Prints j) (hbehind : Spaced ts rest)
    (hends : Decimal.EndsRun rest) :
    Spaced (.leaf (.string (Text.ofString key)) :: .mark .colon :: (j.tokens ++ ts))
      ((Text.ofString key).print ++ ':' :: (j.print ++ rest)) :=
  .token (.leaf (.ofString key)) Bool.noConfusion (.cons_mark .colon (hvalue.spaced hbehind hends))

theorem members {ms : List (String × Json)} (hparts : ∀ m ∈ ms, Prints m.2)
    (hbehind : Spaced ts rest) :
    Spaced (memberTokens (plain ms) ++ ts) (printMembers (plain ms) ++ rest) := by
  induction ms with
  | nil => exact .cons_mark .closeObject hbehind
  | cons m ms ih =>
    obtain ⟨key, j⟩ := m
    obtain ⟨hfirst, hothers⟩ := List.forall_mem_cons.mp hparts
    cases ms with
    | nil =>
      have hlast := member key hfirst (.cons_mark .closeObject hbehind)
        (Mark.endsRun .closeObject rest)
      simpa [plain, memberTokens, printMembers, Mark.char] using hlast
    | cons next ms =>
      have hmore := member key hfirst (.cons_mark .comma (ih hothers)) (Mark.endsRun .comma _)
      simpa [plain, memberTokens_cons_cons, printMembers, Mark.char] using hmore

theorem ofMembers {ms : List (String × Json)} (hparts : ∀ m ∈ ms, Prints m.2) :
    Prints (.ofMembers ms) :=
  ⟨fun hbehind _ => .cons_mark .openObject (members hparts hbehind)⟩

/-- **A text that is printed of such a document is read as it.** -/
theorem parse? {j : Json} (h : Prints j) : Json.parse? j.print = some j := by
  have hspaced := h.spaced .nil endsNumber_nil.endsRun
  rw [List.append_nil, List.append_nil] at hspaced
  exact parse?_eq_some_iff.mpr hspaced

end Prints

end Relay.Json

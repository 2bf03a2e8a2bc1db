import Relay.Proofs.Form.RoundTrip
import Relay.Proofs.Text.Integers
import Relay.Proofs.Text.Words

/-!
# What is written is read back

* `parseIntegers_joinWith`: the decimal texts of integers are read back whatever white space stands
  between them;
* `parseIntegers_format`, `read?_format`: both formats of a list are read back;
* `format_inj`: a format writes different lists differently;
* `output_reads_back`: all of this together.
-/

namespace Relay

/-! ## The words of a written list -/

theorem isBlank_of_isDigit {c : Char} (h : c.isDigit = true) : Text.isBlank c = false := by
  obtain ⟨hlow, hhigh⟩ := Char.isDigit_iff_toNat.mp h
  have hcode : 48 ≤ c.toNat ∧ c.toNat ≤ 57 := ⟨hlow, hhigh⟩
  simp only [Text.isBlank, Bool.or_eq_false_iff, Bool.and_eq_false_iff, decide_eq_false_iff_not]
  omega

/-- The decimal text of an integer is a word. -/
theorem Int32Value.isWord_text (i : Int32Value) : Text.IsWord i.text := by
  refine ⟨?_, fun c hc => ?_⟩
  · obtain ⟨i, hfits⟩ := i
    cases i with
    | ofNat n => exact Nat.toDigits_ne_nil
    | negSucc n => exact List.cons_ne_nil _ _
  · rcases mem_ofInt hc with rfl | hdigit
    · rfl
    · exact isBlank_of_isDigit hdigit

variable (l : List Int32Value)

/-- The decimal texts of integers are read back, whatever white space stands between them. -/
theorem parseIntegers_joinWith {lead trail : List Char} {sep : Nat → List Char}
    (hbefore : Text.IsGap lead) (hafter : Text.IsGap trail) (hblank : ∀ i, Text.IsGap (sep i))
    (hsome : ∀ i, sep i ≠ []) :
    parseIntegers (String.ofList (lead ++ Text.joinWith sep (l.map Int32Value.text) ++ trail)) =
      .ok l := by
  have hparts : ∀ w ∈ l.map Int32Value.text, Text.IsWord w := by
    intro w hw
    obtain ⟨i, -, rfl⟩ := List.mem_map.mp hw
    exact i.isWord_text
  apply parseIntegers_of_words
  rw [String.toList_ofList]
  exact (Text.Parted.joinWith hparts hblank hsome hbefore hafter).words_eq

/-! ## Both formats -/

theorem format_plain : formatIntegers l .plain =
    String.ofList (Text.joinWith (fun _ => [' ']) (l.map Int32Value.text)) := by
  rw [formatIntegers, Text.joinWith_const]

theorem parseIntegers_format : parseIntegers (formatIntegers l .plain) = .ok l := by
  have hspace : Text.IsGap [' '] := by decide
  have hread :=
    parseIntegers_joinWith l .nil .nil (fun _ => hspace) fun _ => List.cons_ne_nil ' ' []
  rwa [List.nil_append, List.append_nil, ← format_plain] at hread

theorem read?_format : Form.ints.read? (formatIntegers l .json) = some l :=
  Form.ints.read?_write l (Nat.le_trans (Form.ints.nesting_le_depth l) (by decide))

/-- A format writes different lists differently. -/
theorem format_inj (f : OutputFormat) {l m : List Int32Value} :
    formatIntegers l f = formatIntegers m f ↔ l = m := by
  refine ⟨fun hsame => ?_, fun hsame => by rw [hsame]⟩
  cases f with
  | plain =>
    have hread := parseIntegers_format l
    rw [hsame, parseIntegers_format] at hread
    exact (Except.ok.inj hread).symm
  | json =>
    have hread := read?_format l
    rw [hsame, read?_format] at hread
    exact (Option.some.inj hread).symm

/-- **The output can be given back as input.** A list of integers is read back from both of its
formats, so that each of them tells the list and with it the other format. The plain one has single
spaces between the integers, and reads the same with any other white space there, and with any
before and behind. -/
theorem output_reads_back :
    (∀ l, parseIntegers (formatIntegers l .plain) = .ok l ∧
      Form.ints.read? (formatIntegers l .json) = some l) ∧
    (∀ f l m, formatIntegers l f = formatIntegers m f ↔ l = m) ∧
    (∀ f g l m, formatIntegers l f = formatIntegers m f ↔
      formatIntegers l g = formatIntegers m g) ∧
    ∀ (l : List Int32Value) (lead trail : List Char) (sep : Nat → List Char),
      Text.IsGap lead → Text.IsGap trail → (∀ i, Text.IsGap (sep i)) → (∀ i, sep i ≠ []) →
      formatIntegers l .plain =
        String.ofList (Text.joinWith (fun _ => [' ']) (l.map Int32Value.text)) ∧
      parseIntegers
          (String.ofList (lead ++ Text.joinWith sep (l.map Int32Value.text) ++ trail)) =
        parseIntegers (formatIntegers l .plain) := by
  refine ⟨fun l => ⟨parseIntegers_format l, read?_format l⟩, fun f l m => format_inj f,
    fun f g l m => (format_inj f).trans (format_inj g).symm,
    fun l lead trail sep hbefore hafter hblank hsome => ⟨format_plain l, ?_⟩⟩
  rw [parseIntegers_joinWith l hbefore hafter hblank hsome, parseIntegers_format]

/-- Both ends of the range, with a line feed and spaces outside ASCII for the single space. -/
theorem output_reads_back_specimen :
    parseIntegers "\u2003-2147483648\n\u30002147483647\t" =
      .ok [⟨-2147483648, by decide⟩, ⟨2147483647, by decide⟩] := by
  obtain ⟨hread, -, -, hspread⟩ := output_reads_back
  have hsep : Text.IsGap ['\n', '\u3000'] := by decide
  have hsame := (hspread [⟨-2147483648, by decide⟩, ⟨2147483647, by decide⟩] ['\u2003'] ['\t']
    (fun _ => ['\n', '\u3000']) (by decide) (by decide) (fun _ => hsep)
    fun _ => List.cons_ne_nil _ _).2
  exact hsame.trans (hread _).1

end Relay

import Relay.Proofs.Form.Layout
import Relay.Text.Integers

/-!
# Integers as text

* `Int32Value.ofWord_text`, `parseIntegers_of_words`: an integer is read back from its decimal text,
  and a list from any text that holds those of its integers as words;
* `newline_not_mem_format`: a list is written on one line in both formats.
-/

namespace Relay

/-! ## Reading what was written -/

theorem le_ofDigitChars (ds : List Char) (n : Nat) : n ≤ Nat.ofDigitChars 10 ds n := by
  induction ds generalizing n with
  | nil => exact Nat.le_refl n
  | cons c ds ih =>
    have hstep := ih (10 * n + (c.toNat - '0'.toNat))
    rw [Nat.ofDigitChars_cons]
    omega

/-- Digits are read to the number that they stand for on top of those before them, if that does not
leave the range. -/
theorem readDigits_append {limit : Nat} {overflow : NumeralFault} {ds : List Char}
    (hdigits : ∀ c ∈ ds, c.isDigit = true) (n : { n : Nat // n ≤ limit })
    (h : Nat.ofDigitChars 10 ds n.val ≤ limit) (rest : List Char) :
    readDigits limit overflow n (ds ++ rest) =
      readDigits limit overflow ⟨Nat.ofDigitChars 10 ds n.val, h⟩ rest := by
  induction ds generalizing n with
  | nil => rfl
  | cons c ds ih =>
    have hnext : 10 * n.val + (c.toNat - '0'.toNat) ≤ limit :=
      Nat.le_trans (le_ofDigitChars ds _) h
    rw [List.cons_append, readDigits, if_pos (hdigits c List.mem_cons_self), dif_pos hnext]
    exact ih (fun d hd => hdigits d (List.mem_cons_of_mem c hd)) ⟨_, hnext⟩ h

theorem readDigits_of_digits {limit : Nat} {overflow : NumeralFault} {ds : List Char}
    (hdigits : ∀ c ∈ ds, c.isDigit = true) (n : { n : Nat // n ≤ limit })
    (h : Nat.ofDigitChars 10 ds n.val ≤ limit) :
    readDigits limit overflow n ds = .ok ⟨Nat.ofDigitChars 10 ds n.val, h⟩ := by
  have hwhole : readDigits limit overflow n (ds ++ []) = _ := readDigits_append hdigits n h []
  rwa [List.append_nil, readDigits] at hwhole

theorem readMagnitude_ofNat {limit n : Nat} (overflow : NumeralFault) (h : n ≤ limit) :
    readMagnitude limit overflow (Decimal.ofNat n) = .ok ⟨n, h⟩ := by
  have hdigits : ∀ c ∈ Decimal.ofNat n, c.isDigit = true := fun c => Decimal.isDigit_of_mem_ofNat
  have hback : Nat.ofDigitChars 10 (Decimal.ofNat n) 0 = n := Decimal.value_ofNat n
  have hsome : ¬ (Decimal.ofNat n).isEmpty = true := by
    rw [List.isEmpty_iff]
    exact Nat.toDigits_ne_nil
  rw [readMagnitude, if_neg hsome, readDigits_of_digits hdigits ⟨0, _⟩ (hback.symm ▸ h)]
  simp only [hback]

namespace Int32Value

/-- The decimal text of a number is read without a sign. -/
theorem ofWord_ofNat {n : Nat} (h : n ≤ 2147483647) :
    ofWord (Decimal.ofNat n) = .ok (ofMagnitude ⟨n, h⟩) := by
  have hunsigned : ∀ c rest, c.isDigit = false → Decimal.ofNat n ≠ c :: rest :=
    fun c rest hother hdigits => Decimal.not_mem_ofNat hother (hdigits ▸ List.mem_cons_self)
  rw [ofWord.eq_3 _ (fun rest => hunsigned '-' rest rfl) fun rest => hunsigned '+' rest rfl,
    readMagnitude_ofNat .tooLarge h]
  rfl

/-- An integer is read back from its decimal text. -/
theorem ofWord_text (i : Int32Value) : ofWord i.text = .ok i := by
  obtain ⟨i, hfits⟩ := i
  obtain ⟨hleast, hgreatest⟩ := IntKind.int_fits_iff.mp hfits
  cases i with
  | ofNat n =>
    exact ofWord_ofNat (Int.ofNat_le.mp hgreatest)
  | negSucc n =>
    have hmagnitude : n + 1 ≤ 2147483648 := by omega
    have hread := readMagnitude_ofNat .tooSmall hmagnitude
    change (readMagnitude 2147483648 .tooSmall (Decimal.ofNat (n + 1))).map ofNegated = _
    rw [hread]
    rfl

end Int32Value

theorem readWords_texts (l : List Int32Value) : readWords (l.map Int32Value.text) = .ok l := by
  induction l with
  | nil => rfl
  | cons i l ih =>
    rw [List.map_cons, readWords, Int32Value.ofWord_text, ih]
    rfl

/-- A list is read from any text whose words are the decimal texts of its integers. -/
theorem parseIntegers_of_words {text : String} {l : List Int32Value}
    (h : Text.words text.toList = l.map Int32Value.text) : parseIntegers text = .ok l := by
  rw [parseIntegers, h, readWords_texts]

/-! ## One line -/

theorem mem_ofInt {i : Int} {c : Char} (h : c ∈ Decimal.ofInt i) : c = '-' ∨ c.isDigit = true := by
  cases i with
  | ofNat n => exact .inr (Decimal.isDigit_of_mem_ofNat h)
  | negSucc n =>
    rcases List.mem_cons.mp h with rfl | h
    · exact .inl rfl
    · exact .inr (Decimal.isDigit_of_mem_ofNat h)

theorem mem_intercalate {sep : List Char} {css : List (List Char)} {c : Char}
    (h : c ∈ sep.intercalate css) : c ∈ sep ∨ ∃ cs ∈ css, c ∈ cs := by
  induction css with
  | nil => cases h
  | cons cs css ih =>
    cases css with
    | nil =>
      rw [List.intercalate_singleton] at h
      exact .inr ⟨cs, List.mem_cons_self, h⟩
    | cons ds css =>
      rw [List.intercalate_cons_cons, List.mem_append, List.mem_append] at h
      rcases h with (h | h) | h
      · exact .inr ⟨cs, List.mem_cons_self, h⟩
      · exact .inl h
      · rcases ih h with h | ⟨es, hes, h⟩
        · exact .inl h
        · exact .inr ⟨es, List.mem_cons_of_mem cs hes, h⟩

/-- The JSON text of integers, spelled out. -/
theorem toList_format_json (l : List Int32Value) : (formatIntegers l .json).toList =
    '[' :: [','].intercalate (l.map Int32Value.text) ++ [']'] := by
  have hlayout : formatIntegers l .json = String.ofList (Form.ints.layout l) :=
    Form.write_eq_layout Form.ints l
  rw [hlayout, String.toList_ofList]
  rfl

/-- The characters of written integers. -/
theorem mem_format {l : List Int32Value} {f : OutputFormat} {c : Char}
    (h : c ∈ (formatIntegers l f).toList) : c ∈ [' ', ',', '[', ']', '-'] ∨ c.isDigit = true := by
  have hitem : ∀ {sep : List Char}, (∀ d ∈ sep, d ∈ [' ', ',', '[', ']', '-']) →
      c ∈ sep.intercalate (l.map Int32Value.text) →
        c ∈ [' ', ',', '[', ']', '-'] ∨ c.isDigit = true := by
    intro sep hknown h
    rcases mem_intercalate h with h | ⟨cs, hcs, h⟩
    · exact .inl (hknown c h)
    · obtain ⟨i, -, rfl⟩ := List.mem_map.mp hcs
      rcases mem_ofInt h with rfl | hdigit
      · exact .inl (by decide)
      · exact .inr hdigit
  cases f with
  | plain =>
    rw [formatIntegers, String.toList_ofList] at h
    exact hitem (by simp) h
  | json =>
    rw [toList_format_json, List.mem_append, List.mem_cons, List.mem_singleton] at h
    rcases h with (rfl | h) | rfl
    · exact .inl (by decide)
    · exact hitem (by simp) h
    · exact .inl (by decide)

/-- Integers are written on one line. -/
theorem newline_not_mem_format (l : List Int32Value) (f : OutputFormat) :
    '\n' ∉ (formatIntegers l f).toList := by
  intro h
  rcases mem_format h with hknown | hdigit
  · revert hknown
    decide
  · cases hdigit

end Relay

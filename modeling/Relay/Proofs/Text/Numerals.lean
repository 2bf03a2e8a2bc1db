import Mathlib.Data.List.Forall2
import Relay.Proofs.Except
import Relay.Proofs.Text.Integers
import Relay.Proofs.Text.Words

/-!
# Which words are integers

A word is an integer if it is a numeral in the 32-bit range: digits, and perhaps a sign before them
(`Numeral`). `Misspelt` says what is wrong with any other word, going through it from the left.

* `Int32Value.ofWord_eq_ok_iff`, `Int32Value.ofWord_eq_error_iff`: how one word is read;
* `readWords_eq_ok_iff`, `readWords_eq_error_iff`: how words are read, up to the first one that is
  no integer;
* `parseIntegers_append`: texts with white space between them are read one after the other;
* `parses_numerals`: how a text is read.
-/

namespace Relay

/-- The words that stand for an integer: digits, as many as there may be, with one sign or none. -/
inductive Numeral : List Char → Int → Prop where
  | bare {ds : List Char} (hrun : Decimal.IsRun ds) : Numeral ds (Decimal.value ds)
  | plus {ds : List Char} (hrun : Decimal.IsRun ds) : Numeral ('+' :: ds) (Decimal.value ds)
  | minus {ds : List Char} (hrun : Decimal.IsRun ds) :
    Numeral ('-' :: ds) (-(Decimal.value ds : Int))

/-- What stops the reading of digits on top of a number: the first character that is no digit, or
the first digit that takes the number above a limit. -/
inductive Stops (limit : Nat) (overflow : NumeralFault) (n : Nat) :
    List Char → NumeralFault → Prop where
  | other {ds rest : List Char} {c : Char} (hdigits : ∀ d ∈ ds, d.isDigit = true)
    (hwithin : Nat.ofDigitChars 10 ds n ≤ limit) (hother : c.isDigit = false) :
    Stops limit overflow n (ds ++ c :: rest) .invalidDigit
  | above {ds rest : List Char} {c : Char} (hdigits : ∀ d ∈ ds, d.isDigit = true)
    (hwithin : Nat.ofDigitChars 10 ds n ≤ limit) (hdigit : c.isDigit = true)
    (habove : limit < Nat.ofDigitChars 10 (ds ++ [c]) n) :
    Stops limit overflow n (ds ++ c :: rest) overflow

/-- What is wrong with a word: nothing stands behind its sign, or something stops the reading of its
digits. A minus sign lets the magnitude go further by one. -/
inductive Misspelt : List Char → NumeralFault → Prop where
  | empty {w : List Char} (hsign : w ∈ [[], ['+'], ['-']]) : Misspelt w .invalidDigit
  | bare {w : List Char} {f : NumeralFault} (hunsigned : ∀ c ∈ w.head?, c ≠ '+' ∧ c ≠ '-')
    (hstops : Stops 2147483647 .tooLarge 0 w f) : Misspelt w f
  | plus {cs : List Char} {f : NumeralFault} (hstops : Stops 2147483647 .tooLarge 0 cs f) :
    Misspelt ('+' :: cs) f
  | minus {cs : List Char} {f : NumeralFault} (hstops : Stops 2147483648 .tooSmall 0 cs f) :
    Misspelt ('-' :: cs) f

/-! ## Digits -/

section
variable {limit : Nat} {overflow f : NumeralFault} {cs : List Char}

theorem readDigits_eq_ok_iff {n m : { n : Nat // n ≤ limit }} :
    readDigits limit overflow n cs = .ok m ↔
      (∀ c ∈ cs, c.isDigit = true) ∧ Nat.ofDigitChars 10 cs n.val = m.val := by
  constructor
  · intro h
    induction cs generalizing n with
    | nil =>
      obtain rfl := Except.ok.inj h
      exact ⟨by simp, rfl⟩
    | cons c cs ih =>
      rw [readDigits] at h
      split at h
      next hdigit =>
        dsimp only at h
        split at h
        next hwithin =>
          obtain ⟨hdigits, hvalue⟩ := ih h
          exact ⟨List.forall_mem_cons.mpr ⟨hdigit, hdigits⟩, by rw [Nat.ofDigitChars_cons, hvalue]⟩
        next => cases h
      next => cases h
  · rintro ⟨hdigits, hvalue⟩
    rw [readDigits_of_digits hdigits n (hvalue ▸ m.property)]
    exact congrArg Except.ok (Subtype.ext hvalue)

theorem Stops.cons {n : Nat} {c : Char} (hdigit : c.isDigit = true)
    (h : Stops limit overflow (10 * n + (c.toNat - '0'.toNat)) cs f) :
    Stops limit overflow n (c :: cs) f := by
  cases h with
  | other hdigits hwithin hother =>
    rw [← Nat.ofDigitChars_cons] at hwithin
    exact .other (List.forall_mem_cons.mpr ⟨hdigit, hdigits⟩) hwithin hother
  | above hdigits hwithin hdigit' habove =>
    rw [← Nat.ofDigitChars_cons] at hwithin habove
    exact .above (List.forall_mem_cons.mpr ⟨hdigit, hdigits⟩) hwithin hdigit' habove

/-- The first character may stop the reading. -/
theorem Stops.at_first {n : Nat} {c : Char} (hwithin : n ≤ limit)
    (h : c.isDigit = false ∧ f = .invalidDigit ∨
      c.isDigit = true ∧ limit < 10 * n + (c.toNat - '0'.toNat) ∧ f = overflow) :
    Stops limit overflow n (c :: cs) f := by
  rcases h with ⟨hother, rfl⟩ | ⟨hdigit, habove, rfl⟩
  · exact .other (List.forall_mem_nil _) hwithin hother
  · exact .above (List.forall_mem_nil _) hwithin hdigit habove

theorem readDigits_eq_error_iff {n : { n : Nat // n ≤ limit }} :
    readDigits limit overflow n cs = .error f ↔ Stops limit overflow n.val cs f := by
  constructor
  · intro h
    induction cs generalizing n with
    | nil => cases h
    | cons c cs ih =>
      rw [readDigits] at h
      split at h
      next hdigit =>
        dsimp only at h
        split at h
        next => exact (ih h).cons hdigit
        next hhigh =>
          have habove := Nat.lt_of_not_le hhigh
          exact .at_first n.property (.inr ⟨hdigit, habove, (Except.error.inj h).symm⟩)
      next hother =>
        exact .at_first n.property (.inl ⟨Bool.eq_false_iff.mpr hother, (Except.error.inj h).symm⟩)
  · intro h
    cases h with
    | other hdigits hwithin hother =>
      rw [readDigits_append hdigits n hwithin, readDigits, if_neg (Bool.eq_false_iff.mp hother)]
    | above hdigits hwithin hdigit habove =>
      rw [Nat.ofDigitChars_append, Nat.ofDigitChars_cons, Nat.ofDigitChars_nil] at habove
      rw [readDigits_append hdigits n hwithin, readDigits, if_pos hdigit]
      exact dif_neg (Nat.not_le_of_lt habove)

theorem readMagnitude_eq_ok_iff {m : { n : Nat // n ≤ limit }} :
    readMagnitude limit overflow cs = .ok m ↔ Decimal.IsRun cs ∧ Decimal.value cs = m.val := by
  rw [readMagnitude]
  split
  next hempty => simp [Decimal.IsRun, List.isEmpty_iff.mp hempty]
  next hsome =>
    have hnonempty : cs ≠ [] := fun heq => hsome (List.isEmpty_iff.mpr heq)
    rw [readDigits_eq_ok_iff, Decimal.IsRun, Decimal.value]
    simp only [hnonempty, ne_eq, not_false_eq_true, true_and]

theorem readMagnitude_eq_error_iff : readMagnitude limit overflow cs = .error f ↔
    cs = [] ∧ f = .invalidDigit ∨ Stops limit overflow 0 cs f := by
  rw [readMagnitude]
  split
  next hempty =>
    obtain rfl := List.isEmpty_iff.mp hempty
    have hnever : ¬ Stops limit overflow 0 [] f := by
      intro h
      generalize hnone : ([] : List Char) = cs at h
      cases h <;> simp at hnone
    simp [hnever, eq_comm]
  next hsome =>
    have hnonempty : cs ≠ [] := fun heq => hsome (List.isEmpty_iff.mpr heq)
    rw [readDigits_eq_error_iff]
    simp [hnonempty]

variable {g : { n : Nat // n ≤ limit } → Int32Value}

/-- What is made of a magnitude is made of a run of digits in range. -/
theorem magnitude_eq_ok_iff {i : Int32Value} :
    (readMagnitude limit overflow cs).map g = .ok i ↔
      Decimal.IsRun cs ∧ ∃ m, Decimal.value cs = m.val ∧ g m = i := by
  simp only [map_eq_ok_iff, readMagnitude_eq_ok_iff, and_assoc, exists_and_left]

theorem magnitude_eq_error_iff : (readMagnitude limit overflow cs).map g = .error f ↔
    cs = [] ∧ f = .invalidDigit ∨ Stops limit overflow 0 cs f := by
  rw [map_eq_error_iff, readMagnitude_eq_error_iff]

end

/-! ## Words -/

namespace Int32Value

theorem ofMagnitude_val (m : { n : Nat // n ≤ 2147483647 }) : (ofMagnitude m).val = m.val :=
  rfl

theorem ofNegated_val (m : { n : Nat // n ≤ 2147483648 }) :
    (ofNegated m).val = -(m.val : Int) :=
  rfl

/-- A word that does not start with a sign is read as a magnitude. -/
theorem ofWord_of_unsigned {w : List Char} (h : ∀ c ∈ w.head?, c ≠ '+' ∧ c ≠ '-') :
    ofWord w = (readMagnitude 2147483647 .tooLarge w).map ofMagnitude := by
  refine ofWord.eq_3 w ?_ ?_
  · rintro rest rfl
    exact (h '-' rfl).2 rfl
  · rintro rest rfl
    exact (h '+' rfl).1 rfl

theorem unsigned_of_isRun {ds : List Char} (hrun : Decimal.IsRun ds) :
    ∀ c ∈ ds.head?, c ≠ '+' ∧ c ≠ '-' := by
  intro c hc
  have hdigit := hrun.2 c (List.mem_of_mem_head? hc)
  constructor <;> rintro rfl <;> cases hdigit

theorem sign_cases (w : List Char) : (∃ cs, w = '-' :: cs) ∨ (∃ cs, w = '+' :: cs) ∨
    ∀ c ∈ w.head?, c ≠ '+' ∧ c ≠ '-' := by
  cases w with
  | nil => exact .inr (.inr fun c hc => by cases hc)
  | cons c cs =>
    by_cases hminus : c = '-'
    · exact .inl ⟨cs, by rw [hminus]⟩
    · by_cases hplus : c = '+'
      · exact .inr (.inl ⟨cs, by rw [hplus]⟩)
      · exact .inr (.inr (by rintro _ ⟨⟩; exact ⟨hplus, hminus⟩))

/-- The words that are read are the numerals in range. -/
theorem ofWord_eq_ok_iff {w : List Char} {i : Int32Value} :
    ofWord w = .ok i ↔ Numeral w i.val := by
  constructor
  · intro h
    rcases sign_cases w with ⟨cs, rfl⟩ | ⟨cs, rfl⟩ | hunsigned
    · obtain ⟨hrun, m, hvalue, rfl⟩ := magnitude_eq_ok_iff.mp h
      rw [ofNegated_val, ← hvalue]
      exact .minus hrun
    · obtain ⟨hrun, m, hvalue, rfl⟩ := magnitude_eq_ok_iff.mp h
      rw [ofMagnitude_val, ← hvalue]
      exact .plus hrun
    · rw [ofWord_of_unsigned hunsigned] at h
      obtain ⟨hrun, m, hvalue, rfl⟩ := magnitude_eq_ok_iff.mp h
      rw [ofMagnitude_val, ← hvalue]
      exact .bare hrun
  · intro h
    obtain ⟨hleast, hgreatest⟩ := IntKind.int_fits_iff.mp i.property
    generalize hstands : i.val = v at h hleast hgreatest
    cases h with
    | bare hrun =>
      rw [ofWord_of_unsigned (unsigned_of_isRun hrun)]
      exact magnitude_eq_ok_iff.mpr
        ⟨hrun, ⟨_, Int.ofNat_le.mp hgreatest⟩, rfl, Subtype.ext hstands.symm⟩
    | plus hrun =>
      exact magnitude_eq_ok_iff.mpr
        ⟨hrun, ⟨_, Int.ofNat_le.mp hgreatest⟩, rfl, Subtype.ext hstands.symm⟩
    | minus hrun =>
      exact magnitude_eq_ok_iff.mpr
        ⟨hrun, ⟨_, Int.ofNat_le.mp (Int.neg_le_neg_iff.mp hleast)⟩, rfl, Subtype.ext hstands.symm⟩

theorem ofWord_eq_error_iff {w : List Char} {f : NumeralFault} :
    ofWord w = .error f ↔ Misspelt w f := by
  constructor
  · intro h
    rcases sign_cases w with ⟨cs, rfl⟩ | ⟨cs, rfl⟩ | hunsigned
    · rcases magnitude_eq_error_iff.mp h with ⟨rfl, rfl⟩ | hstops
      · exact .empty (by simp)
      · exact .minus hstops
    · rcases magnitude_eq_error_iff.mp h with ⟨rfl, rfl⟩ | hstops
      · exact .empty (by simp)
      · exact .plus hstops
    · rw [ofWord_of_unsigned hunsigned] at h
      rcases magnitude_eq_error_iff.mp h with ⟨rfl, rfl⟩ | hstops
      · exact .empty (by simp)
      · exact .bare hunsigned hstops
  · intro h
    cases h with
    | empty hsign =>
      simp only [List.mem_cons, List.not_mem_nil, or_false] at hsign
      rcases hsign with rfl | rfl | rfl <;> rfl
    | bare hunsigned hstops =>
      rw [ofWord_of_unsigned hunsigned]
      exact magnitude_eq_error_iff.mpr (.inr hstops)
    | plus hstops => exact magnitude_eq_error_iff.mpr (.inr hstops)
    | minus hstops => exact magnitude_eq_error_iff.mpr (.inr hstops)

end Int32Value

/-! ## Texts -/

/-- Words are read if each of them is a numeral in range. -/
theorem readWords_eq_ok_iff {ws : List (List Char)} {l : List Int32Value} :
    readWords ws = .ok l ↔ List.Forall₂ (fun w i => Numeral w i.val) ws l := by
  induction ws generalizing l with
  | nil => rw [List.forall₂_nil_left_iff, readWords, Except.ok.injEq, eq_comm]
  | cons w ws ih =>
    rw [readWords]
    cases hread : Int32Value.ofWord w with
    | error f =>
      constructor
      · intro h
        cases h
      · intro h
        cases h with
        | cons hfirst _ =>
          rw [Int32Value.ofWord_eq_ok_iff.mpr hfirst] at hread
          cases hread
    | ok i =>
      rw [map_eq_ok_iff]
      constructor
      · rintro ⟨l, hrest, rfl⟩
        exact .cons (Int32Value.ofWord_eq_ok_iff.mp hread) (ih.mp hrest)
      · intro h
        cases h with
        | @cons _ j _ l hfirst hrest =>
          rw [Int32Value.ofWord_eq_ok_iff.mpr hfirst] at hread
          obtain rfl := Except.ok.inj hread
          exact ⟨l, ih.mpr hrest, rfl⟩

/-- The fault is that of the first word which is no numeral in range. -/
theorem readWords_eq_error_iff {ws : List (List Char)} {f : WordFault} :
    readWords ws = .error f ↔ ∃ before after, ws = before ++ f.word :: after ∧
      (∀ v ∈ before, ∃ i : Int32Value, Numeral v i.val) ∧ Misspelt f.word f.cause := by
  induction ws with
  | nil =>
    constructor
    · intro h
      cases h
    · rintro ⟨before, after, heq, -⟩
      simp at heq
  | cons w ws ih =>
    rw [readWords]
    simp only [List.cons_eq_append_iff]
    cases hread : Int32Value.ofWord w with
    | error cause =>
      have hwrong := Int32Value.ofWord_eq_error_iff.mp hread
      constructor
      · intro h
        obtain rfl := Except.error.inj h
        exact ⟨[], ws, .inl ⟨rfl, rfl⟩, List.forall_mem_nil _, hwrong⟩
      · rintro ⟨before, after, ⟨rfl, heq⟩ | ⟨tail, rfl, -⟩, hnumerals, hmisspelt⟩
        · obtain ⟨rfl, rfl⟩ := List.cons.inj heq
          rw [Int32Value.ofWord_eq_error_iff.mpr hmisspelt] at hread
          rw [← Except.error.inj hread]
        · obtain ⟨i, hnumeral⟩ := hnumerals w List.mem_cons_self
          rw [Int32Value.ofWord_eq_ok_iff.mpr hnumeral] at hread
          cases hread
    | ok i =>
      have hnumeral := Int32Value.ofWord_eq_ok_iff.mp hread
      rw [map_eq_error_iff, ih]
      constructor
      · rintro ⟨before, after, rfl, hnumerals, hmisspelt⟩
        exact ⟨w :: before, after, .inr ⟨before, rfl, rfl⟩,
          List.forall_mem_cons.mpr ⟨⟨i, hnumeral⟩, hnumerals⟩, hmisspelt⟩
      · rintro ⟨before, after, ⟨rfl, heq⟩ | ⟨tail, rfl, rfl⟩, hnumerals, hmisspelt⟩
        · obtain ⟨rfl, rfl⟩ := List.cons.inj heq
          rw [Int32Value.ofWord_eq_error_iff.mpr hmisspelt] at hread
          cases hread
        · exact ⟨tail, after, rfl, (List.forall_mem_cons.mp hnumerals).2, hmisspelt⟩

/-- Words are read one behind the other. -/
theorem readWords_append (ws vs : List (List Char)) :
    readWords (ws ++ vs) = do return (← readWords ws) ++ (← readWords vs) := by
  induction ws with
  | nil =>
    rw [List.nil_append, readWords]
    cases readWords vs <;> rfl
  | cons w ws ih =>
    rw [List.cons_append, readWords, readWords, ih]
    cases Int32Value.ofWord w with
    | error f => rfl
    | ok i => cases readWords ws <;> cases readWords vs <;> rfl

/-- Texts with white space between them are read one behind the other. -/
theorem parseIntegers_append {gap : String} (hblank : Text.IsGap gap.toList) (hsome : gap ≠ "")
    (s t : String) : parseIntegers (s ++ gap ++ t) =
      do return (← parseIntegers s) ++ (← parseIntegers t) := by
  have hsome' : gap.toList ≠ [] := fun heq => hsome (String.toList_inj.mp heq)
  simp only [parseIntegers, String.toList_append]
  rw [Text.words_append hblank hsome', readWords_append]

/-- **A text is read if its words are numerals in range**, as the integers that they stand for. If
they are not, the fault names the first that is none, and what is wrong with it going through it
from the left. The words of a text are its maximal runs without white space, and so texts with white
space between them are read one behind the other. -/
theorem parses_numerals :
    (∀ text : String, ∃! ws, Text.Parted ws text.toList) ∧
    (∀ (text : String) (ws : List (List Char)), Text.Parted ws text.toList →
      (∀ l, parseIntegers text = .ok l ↔ List.Forall₂ (fun w i => Numeral w i.val) ws l) ∧
      ∀ f, parseIntegers text = .error f ↔ ∃ before after, ws = before ++ f.word :: after ∧
        (∀ v ∈ before, ∃ i : Int32Value, Numeral v i.val) ∧
        (¬ ∃ i : Int32Value, Numeral f.word i.val) ∧ Misspelt f.word f.cause) ∧
    ∀ gap s t : String, Text.IsGap gap.toList → gap ≠ "" → parseIntegers (s ++ gap ++ t) =
      do return (← parseIntegers s) ++ (← parseIntegers t) := by
  refine ⟨fun text => ?_, fun text ws hparted => ⟨fun l => ?_, fun f => ?_⟩, ?_⟩
  · exact ⟨_, Text.words_eq_iff.mp rfl, fun ws hparted => hparted.words_eq.symm⟩
  · rw [parseIntegers, hparted.words_eq, readWords_eq_ok_iff]
  · rw [parseIntegers, hparted.words_eq, readWords_eq_error_iff]
    have hnone (hmisspelt : Misspelt f.word f.cause) :
        ¬ ∃ i : Int32Value, Numeral f.word i.val := by
      rintro ⟨i, hnumeral⟩
      have hread := Int32Value.ofWord_eq_ok_iff.mpr hnumeral
      rw [Int32Value.ofWord_eq_error_iff.mpr hmisspelt] at hread
      cases hread
    constructor
    · rintro ⟨before, after, heq, hnumerals, hmisspelt⟩
      exact ⟨before, after, heq, hnumerals, hnone hmisspelt, hmisspelt⟩
    · rintro ⟨before, after, heq, hnumerals, -, hmisspelt⟩
      exact ⟨before, after, heq, hnumerals, hmisspelt⟩
  · exact fun gap s t hblank hsome => parseIntegers_append hblank hsome s t

/-- Leading zeros and the least integer; a word that leaves the range before it goes wrong; and a
space outside ASCII. -/
theorem parses_numerals_specimen :
    parseIntegers "+007\t-2147483648" = .ok [⟨7, by decide⟩, ⟨-2147483648, by decide⟩] ∧
    parseIntegers "5 2147483648x y" =
      .error ⟨['2', '1', '4', '7', '4', '8', '3', '6', '4', '8', 'x'], .tooLarge⟩ ∧
    parseIntegers ("1" ++ "\u3000" ++ "x") = .error ⟨['x'], .invalidDigit⟩ := by
  obtain ⟨-, htexts, hapart⟩ := parses_numerals
  refine ⟨?_, ?_, ?_⟩
  · have hparted : Text.Parted [['+', '0', '0', '7'],
        ['-', '2', '1', '4', '7', '4', '8', '3', '6', '4', '8']] "+007\t-2147483648".toList :=
      Text.words_eq_iff.mp (by decide +kernel)
    exact ((htexts _ _ hparted).1 _).mpr
      (.cons (.plus (by decide)) (.cons (.minus (by decide)) .nil))
  · have hparted : Text.Parted [['5'],
        ['2', '1', '4', '7', '4', '8', '3', '6', '4', '8', 'x'], ['y']] "5 2147483648x y".toList :=
      Text.words_eq_iff.mp (by decide +kernel)
    have hstops : Stops 2147483647 .tooLarge 0
        (['2', '1', '4', '7', '4', '8', '3', '6', '4'] ++ '8' :: ['x']) .tooLarge :=
      .above (List.all_eq_true.mp rfl) (by decide) rfl (by decide)
    refine ((htexts _ _ hparted).2 _).mpr ⟨[['5']], [['y']], rfl, ?_, ?_, .bare ?_ hstops⟩
    · exact List.forall_mem_singleton.mpr ⟨⟨5, by decide⟩, .bare (by decide)⟩
    · rintro ⟨i, hnumeral⟩
      generalize i.val = v at hnumeral
      cases hnumeral with
      | bare hrun => exact absurd (hrun.2 'x' (by decide)) (by decide)
    · rintro _ ⟨⟩
      decide
  · rw [hapart "\u3000" "1" "x" (by decide +kernel) (by decide)]
    decide +kernel

end Relay

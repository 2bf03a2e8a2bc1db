import Mathlib.Data.List.TakeWhile
import Relay.Proofs.Except
import Relay.Proofs.Text.Integers
import Relay.Settings.Arguments

/-!
# Integers on the command line

`Arguments.parse_append_texts`: a command line that is accepted without integers is accepted with
the decimal texts of any integers after it, and gives these. The words are read one at a time
(`Arguments.readAll_cons`), and an option that waits for its value is never one that needs none
(`Pending.Proper`).
-/

namespace Relay

/-- An option that waits for its value is one that needs a value. -/
def Pending.Proper (p : Pending) : Prop :=
  ∀ flag, p = .option flag none → flag.isSwitch = false

theorem readValues_texts (l : List Int32Value) : readValues (l.map Int32Value.text) = .ok l := by
  induction l with
  | nil => rfl
  | cons i l ih =>
    rw [List.map_cons, readValues, Int32Value.ofWord_text, ih]
    rfl

theorem readValues_append {ws ws' : List (List Char)} {l l' : List Int32Value}
    (h : readValues ws = .ok l) (h' : readValues ws' = .ok l') :
    readValues (ws ++ ws') = .ok (l ++ l') := by
  induction ws generalizing l with
  | nil =>
    cases h
    exact h'
  | cons w ws ih =>
    rw [readValues] at h
    split at h
    next i hword =>
      cases hothers : readValues ws with
      | error f =>
        rw [hothers] at h
        cases h
      | ok l =>
        rw [hothers] at h
        cases h
        rw [List.cons_append, readValues, hword, ih hothers]
        rfl
    next => cases h

namespace Arguments

variable {a a' : Arguments} {p p' : Pending}

/-! ## One word at a time -/

theorem proper_of_give {flag : Flag} {word : Option (List Char)}
    (h : a.give p flag word = .ok (a', p')) : p'.Proper := by
  obtain ⟨b, -, h⟩ := bind_eq_ok.mp h
  split at h
  next hwaits =>
    cases h
    intro flag' hsame
    cases hsame
    simpa using (Bool.and_eq_true_iff.mp hwaits).2
  next =>
    obtain ⟨b', -, h⟩ := bind_eq_ok.mp h
    cases h
    exact fun _ hsame => nomatch hsame

theorem askHelp_ne_ok : a.askHelp p ≠ .ok (a', p') := by
  intro h
  obtain ⟨b, -, h⟩ := bind_eq_ok.mp h
  cases h

theorem proper_of_readLong {cs : List Char} (h : a.readLong p cs = .ok (a', p')) : p'.Proper := by
  unfold readLong at h
  extract_lets name word at h
  split at h
  next => exact proper_of_give h
  next =>
    split at h
    next =>
      split at h
      next => cases h
      next => exact absurd h askHelp_ne_ok
    next => cases h

theorem proper_of_readShort {cs : List Char} (hproper : p.Proper)
    (h : a.readShort p cs = .ok (a', p')) : p'.Proper := by
  induction cs generalizing a p with
  | nil =>
    cases h
    exact hproper
  | cons c rest ih =>
    unfold readShort at h
    split at h
    next => exact proper_of_give h
    next flag hrest _ =>
      split at h
      next =>
        obtain ⟨⟨b, q⟩, hgiven, h⟩ := bind_eq_ok.mp h
        exact ih (proper_of_give hgiven) h
      next => exact proper_of_give h
    next =>
      split at h
      next => exact absurd h askHelp_ne_ok
      next => cases h

theorem proper_of_readInteger {word : List Char} (h : a.readInteger p word = .ok (a', p')) :
    p'.Proper := by
  unfold readInteger at h
  split at h
  next =>
    cases h
    exact fun _ hsame => nomatch hsame
  next =>
    cases hsettled : a.settle p with
    | error f =>
      rw [hsettled] at h
      cases h
    | ok b =>
      rw [hsettled] at h
      cases h
      exact fun _ hsame => nomatch hsame

theorem proper_of_readPlain {word : List Char} (h : a.readPlain p word = .ok (a', p')) :
    p'.Proper := by
  unfold readPlain at h
  split at h
  next =>
    cases h
    exact fun _ hsame => nomatch hsame
  next => exact proper_of_readInteger h

theorem readAll_long {cs : List Char} (h : cs ≠ []) (rest : List (List Char)) :
    readAll false a p (('-' :: '-' :: cs) :: rest) =
      a.readLong p cs >>= fun (a, p) => readAll false a p rest := by
  cases cs with
  | nil => exact absurd rfl h
  | cons => rfl

theorem readAll_short {c : Char} (h : c ≠ '-') (cs : List Char) (rest : List (List Char)) :
    readAll false a p (('-' :: c :: cs) :: rest) =
      (if isNumeric (c :: cs) then a.readPlain p ('-' :: c :: cs) else a.readShort p (c :: cs)) >>=
        fun (a, p) => readAll false a p rest := by
  rw [readAll.eq_def false a p (_ :: _)]
  dsimp only
  rw [if_neg Bool.false_ne_true]
  split
  next hsame => exact absurd (List.cons.inj (List.cons.inj hsame).2).1 h
  next hsame => exact absurd (List.cons.inj (List.cons.inj hsame).2).1 h
  next hsame =>
    obtain ⟨rfl, rfl⟩ := List.cons.inj (List.cons.inj hsame).2
    by_cases hnumeric : isNumeric (c :: cs) = true
    · rw [if_pos hnumeric, if_pos hnumeric]
    · rw [if_neg hnumeric, if_neg hnumeric]
  next hother => exact absurd rfl (hother c cs)

theorem readAll_plain {word : List Char} (h : ∀ c cs, word ≠ '-' :: c :: cs)
    (rest : List (List Char)) : readAll false a p (word :: rest) =
      a.readPlain p word >>= fun (a, p) => readAll false a p rest := by
  rw [readAll.eq_def false a p (_ :: _)]
  dsimp only
  rw [if_neg Bool.false_ne_true]
  split
  next => exact absurd rfl (h _ _)
  next => exact absurd rfl (h _ _)
  next => exact absurd rfl (h _ _)
  next => rfl

/-- A word is refused whatever follows it, or is taken in and leaves the words after it to be
read. -/
theorem readAll_cons (trailing : Bool) (a : Arguments) (hproper : p.Proper) (word : List Char) :
    (∃ f, ∀ rest, readAll trailing a p (word :: rest) = .error f) ∨
      ∃ trailing' a' p', p'.Proper ∧
        ∀ rest, readAll trailing a p (word :: rest) = readAll trailing' a' p' rest := by
  have htaken : ∀ (trailing' : Bool) (x : Except ArgumentFault (Arguments × Pending)),
      (∀ a' p', x = .ok (a', p') → p'.Proper) →
      (∀ rest, readAll trailing a p (word :: rest) =
        x >>= fun (a, p) => readAll trailing' a p rest) →
      (∃ f, ∀ rest, readAll trailing a p (word :: rest) = .error f) ∨
        ∃ trailing' a' p', p'.Proper ∧
          ∀ rest, readAll trailing a p (word :: rest) = readAll trailing' a' p' rest := by
    intro trailing' x hproper' hsplit
    cases x with
    | error f => exact .inl ⟨f, hsplit⟩
    | ok ap => exact .inr ⟨trailing', ap.1, ap.2, hproper' _ _ rfl, hsplit⟩
  cases trailing with
  | true => exact htaken true (a.readInteger p word) (fun _ _ => proper_of_readInteger) fun _ => rfl
  | false =>
    by_cases hdashes : word = ['-', '-']
    · subst hdashes
      exact .inr ⟨true, a, p, hproper, fun _ => rfl⟩
    by_cases hoption : ∃ c cs, word = '-' :: c :: cs
    · obtain ⟨c, cs, rfl⟩ := hoption
      by_cases hlong : c = '-'
      · subst hlong
        have hsome : cs ≠ [] := fun hnone => hdashes (hnone ▸ rfl)
        exact htaken false _ (fun _ _ => proper_of_readLong) (readAll_long hsome)
      · refine htaken false _ (fun a' p' hread => ?_) (readAll_short hlong cs)
        split at hread
        · exact proper_of_readPlain hread
        · exact proper_of_readShort hproper hread
    · exact htaken false _ (fun _ _ => proper_of_readPlain)
        (readAll_plain fun c cs hsame => hoption ⟨c, cs, hsame⟩)

/-! ## Integers after the other words -/

theorem isNumeric_ofNat (n : Nat) : isNumeric (Decimal.ofNat n) = true := by
  have hdigits : ∀ c ∈ Decimal.ofNat n, c.isDigit = true := fun c => Decimal.isDigit_of_mem_ofNat
  have hwhole : (Decimal.ofNat n).takeWhile (fun c => decide (c ≠ 'e')) = Decimal.ofNat n := by
    refine List.takeWhile_eq_self_iff.mpr fun c hc => decide_eq_true ?_
    rintro rfl
    exact Decimal.not_mem_ofNat (by decide) hc
  have hrest : (Decimal.ofNat n).dropWhile (fun c => decide (c ≠ 'e')) = [] := by
    refine List.dropWhile_eq_nil_iff.mpr fun c hc => decide_eq_true ?_
    rintro rfl
    exact Decimal.not_mem_ofNat (by decide) hc
  have hpoint : '.' ∉ Decimal.ofNat n := Decimal.not_mem_ofNat (by decide)
  have hfirst : (Decimal.ofNat n).head? ≠ some '.' := fun h => hpoint (List.mem_of_head? h)
  have hsome : (Decimal.ofNat n).isEmpty = false :=
    Bool.eq_false_iff.mpr fun h => Nat.toDigits_ne_nil (List.isEmpty_iff.mp h)
  rw [isNumeric, hwhole, hrest, isMantissa, hsome, List.count_eq_zero.mpr hpoint]
  simpa [hfirst] using fun c hc => Or.inl (hdigits c hc)

/-- The decimal text of an integer is digits, perhaps after a minus sign. -/
theorem text_cases (i : Int32Value) :
    ∃ n, i.text = Decimal.ofNat n ∨ i.text = '-' :: Decimal.ofNat n := by
  obtain ⟨i, hfits⟩ := i
  cases i with
  | ofNat n => exact ⟨n, .inl rfl⟩
  | negSucc n => exact ⟨n + 1, .inr rfl⟩

/-- The decimal text of an integer is taken as no option. -/
theorem readAll_text (trailing : Bool) (a : Arguments) (i : Int32Value) (rest : List (List Char))
    (hwaits : ∀ flag, p ≠ .option flag none) : readAll trailing a p (i.text :: rest) =
      a.readInteger p i.text >>= fun (a, p) => readAll trailing a p rest := by
  have hplain : a.readPlain p i.text = a.readInteger p i.text := by
    unfold readPlain
    split
    next flag => exact absurd rfl (hwaits flag)
    next => rfl
  cases trailing with
  | true => rfl
  | false =>
    rw [← hplain]
    obtain ⟨n, htext | htext⟩ := text_cases i
    all_goals
      obtain ⟨c, cs, hdigits, hdigit⟩ := Decimal.exists_ofNat n
      rw [htext, hdigits]
      have hdash : c ≠ '-' := by
        rintro rfl
        cases hdigit
    · exact readAll_plain (fun _ _ hsame => hdash (List.cons.inj hsame).1) rest
    · have hnumeric : isNumeric (c :: cs) = true := hdigits ▸ isNumeric_ofNat n
      rw [readAll_short hdash, if_pos hnumeric]

theorem readAll_texts (trailing : Bool) (a : Arguments) (ws : List (List Char))
    (l : List Int32Value) : readAll trailing a (.values ws) (l.map Int32Value.text) =
      a.settle (.values (ws ++ l.map Int32Value.text)) := by
  induction l generalizing ws with
  | nil =>
    rw [List.map_nil, List.append_nil]
    rfl
  | cons i l ih =>
    have hwaits : ∀ flag, Pending.values ws ≠ .option flag none := fun _ => nofun
    rw [List.map_cons, readAll_text _ _ _ _ hwaits]
    have hothers := ih (ws ++ [i.text])
    rw [List.append_assoc] at hothers
    exact hothers

/-- No option that waits for its value is taken in. -/
theorem not_waiting (hproper : p.Proper) (hsettled : a.settle p = .ok a') (flag : Flag) :
    p ≠ .option flag none := by
  rintro rfl
  have hneeds := hproper flag rfl
  cases flag with
  | mode | capacity => cases hsettled
  | json | verbose => cases hneeds

/-- Integers are taken in after others. -/
theorem settle_append_texts {ws : List (List Char)} {l : List Int32Value}
    (hsettled : a.settle (.values ws) = .ok a') (hnone : a'.values = []) :
    a.settle (.values (ws ++ l.map Int32Value.text)) = .ok { a' with values := l } := by
  cases hread : readValues ws with
  | error f =>
    rw [settle, hread] at hsettled
    cases hsettled
  | ok is =>
    rw [settle, hread] at hsettled
    cases hsettled
    obtain ⟨hbefore, rfl⟩ := List.append_eq_nil_iff.mp hnone
    rw [settle, readValues_append hread (readValues_texts l)]
    simp [Except.map, hbefore]

/-- Integers at the end of the command line are read if nothing waits for a value, and no others
have come. -/
theorem readAll_append_texts {ws : List (List Char)} {l : List Int32Value} (hsome : l ≠ [])
    {trailing : Bool} (hproper : p.Proper) (haccepted : readAll trailing a p ws = .ok a')
    (hnone : a'.values = []) :
    readAll trailing a p (ws ++ l.map Int32Value.text) = .ok { a' with values := l } := by
  induction ws generalizing trailing a p with
  | nil =>
    change a.settle p = .ok a' at haccepted
    have hwaits := not_waiting hproper haccepted
    obtain ⟨i, l, rfl⟩ := List.exists_cons_of_ne_nil hsome
    by_cases hpending : ∃ words, p = .values words
    · obtain ⟨words, rfl⟩ := hpending
      rw [List.nil_append, readAll_texts]
      exact settle_append_texts haccepted hnone
    · have hbegun : a.readInteger p i.text = .ok (a', .values [i.text]) := by
        unfold readInteger
        split
        next words => exact absurd ⟨words, rfl⟩ hpending
        next => rw [haccepted]; rfl
      rw [List.nil_append, List.map_cons, readAll_text trailing a i _ hwaits, hbegun]
      refine (readAll_texts trailing a' [i.text] l).trans ?_
      have hsettled : a'.settle (.values []) = .ok a' := by
        simp [settle, readValues, Except.map]
      exact settle_append_texts hsettled hnone (l := i :: l)
  | cons word ws ih =>
    obtain ⟨f, hrefused⟩ | ⟨trailing', b, q, hproper', htaken⟩ :=
      readAll_cons trailing a hproper word
    · rw [hrefused] at haccepted
      cases haccepted
    · rw [htaken] at haccepted
      rw [List.cons_append, htaken]
      exact ih hproper' haccepted

/-- **Integers may be given after the other words.** A command line that is accepted without
integers is accepted with their decimal texts after it, and gives them and the settings that it
gave. -/
theorem parse_append_texts {words : List String} {l : List Int32Value} (hsome : l ≠ [])
    (haccepted : parse words = .ok a) (hnone : a.values = []) :
    parse (words ++ l.map fun i => String.ofList i.text) = .ok { a with values := l } := by
  have htexts : (l.map fun i => String.ofList i.text).map String.toList =
      l.map Int32Value.text := by
    simp
  rw [parse, List.map_append, htexts]
  exact readAll_append_texts hsome (fun _ hsame => nomatch hsame) haccepted hnone

end Arguments

end Relay

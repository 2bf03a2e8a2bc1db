import Mathlib.Data.List.Induction
import Relay.Json.Parser

/-!
# Tokens of JSON text

How the tokens of a JSON text are spelled, given by rules, and what the readers of single tokens
make of them. A token is a punctuation mark or a document without parts (`Leaf`), and it is the
meaning of what is spelled: `"a"` and `"\u0061"` are spellings of one token.

* `stringBody_eq_some_iff`: what is read up to a closing quote are the contents of a string;
* `number?_sound`, `Leaf.Spells.number?`: a number is read to its end, and nothing else is read as
  one;
* `Leaf.Spells.readValue`, `readValue_leaf`: the same for every leaf.
-/

namespace Relay

/-! ## Digits -/

namespace Decimal

/-- The numeral of a positive number has no leading zero. -/
theorem head?_ofNat_ne_zero {n : Nat} (hpos : 0 < n) : (ofNat n).head? ≠ some '0' := by
  induction n using Nat.strongRecOn with
  | ind n ih =>
    rw [ofNat, Nat.toDigits_eq_if (by decide)]
    split
    next hsmall =>
      have hdigit : ∀ d < 10, 0 < d → Nat.digitChar d ≠ '0' := by decide
      simpa using hdigit n hsmall hpos
    next hlarge =>
      have hshorter : (ofNat (n / 10)).head? ≠ some '0' := ih (n / 10) (by omega) (by omega)
      rwa [List.head?_append, Option.or_of_isSome (by simp [Nat.toDigits_ne_nil])]

/-- A text that does not go on with a digit. -/
def EndsRun (rest : List Char) : Prop :=
  ∀ c ∈ rest.head?, c.isDigit = false

/-- A run of digits ends where the text goes on with no digit. -/
theorem span_append_of_digits {ds rest : List Char} (hdigits : ∀ c ∈ ds, c.isDigit = true)
    (hends : EndsRun rest) : span (ds ++ rest) = (ds, rest) := by
  have hstop : rest.takeWhile Char.isDigit = [] ∧ rest.dropWhile Char.isDigit = rest := by
    cases rest with
    | nil => exact ⟨rfl, rfl⟩
    | cons c rest =>
      have hc : c.isDigit = false := hends c rfl
      simp [hc]
  rw [span, List.takeWhile_append_of_pos hdigits, List.dropWhile_append_of_pos hdigits, hstop.1,
    hstop.2, List.append_nil]

/-- Digits, and at least one of them. -/
def IsRun (ds : List Char) : Prop :=
  ds ≠ [] ∧ ∀ c ∈ ds, c.isDigit = true

instance (ds : List Char) : Decidable (IsRun ds) :=
  have : Decidable (∀ c ∈ ds, c.isDigit = true) := List.decidableBAll (fun c => c.isDigit = true) ds
  inferInstanceAs (Decidable (_ ∧ _))

theorem isDigit_of_span {cs ds rest : List Char} (h : span cs = (ds, rest)) :
    ∀ c ∈ ds, c.isDigit = true := by
  obtain ⟨rfl, -⟩ := Prod.mk.inj h
  exact List.all_eq_true.mp List.all_takeWhile

theorem endsRun_of_span {cs ds rest : List Char} (h : span cs = (ds, rest)) : EndsRun rest := by
  obtain ⟨-, rfl⟩ := Prod.mk.inj h
  intro c hc
  have hstop := List.head?_dropWhile_not Char.isDigit cs
  rw [Option.mem_def.mp hc] at hstop
  exact hstop

theorem append_of_span {cs ds rest : List Char} (h : span cs = (ds, rest)) : cs = ds ++ rest := by
  rw [← span_append cs, h]

theorem digitChar_of_isDigit {c : Char} (h : c.isDigit = true) :
    c.toNat - '0'.toNat < 10 ∧ Nat.digitChar (c.toNat - '0'.toNat) = c := by
  obtain ⟨hlow, hhigh⟩ := Char.isDigit_iff_toNat.mp h
  have hall : ∀ n < 58, 48 ≤ n → Nat.digitChar (n - 48) = Char.ofNat n := by decide
  have hcode : c.toNat < 58 := Nat.lt_of_le_of_lt hhigh (by decide)
  refine ⟨Nat.sub_lt_left_of_lt_add hlow hcode, ?_⟩
  rw [show '0'.toNat = 48 from rfl, hall c.toNat hcode hlow, Char.ofNat_toNat]

theorem value_concat (ds : List Char) (c : Char) :
    value (ds ++ [c]) = 10 * value ds + (c.toNat - '0'.toNat) := by
  rw [value, Nat.ofDigitChars_append, Nat.ofDigitChars_cons, Nat.ofDigitChars_nil, value]

/-- A run of digits without a leading zero is the numeral of the number that it stands for. -/
theorem ofNat_value {ds : List Char} (hrun : IsRun ds) (hlead : ds.head? = some '0' → ds = ['0']) :
    ofNat (value ds) = ds := by
  induction ds using List.reverseRecOn with
  | nil => exact absurd rfl hrun.1
  | append_singleton ds c ih =>
    obtain ⟨hsmall, hdigit⟩ := digitChar_of_isDigit (hrun.2 c (by simp))
    rw [value_concat]
    cases ds with
    | nil =>
      have hone : value [] = 0 := rfl
      rw [hone, Nat.mul_zero, Nat.zero_add, ofNat, Nat.toDigits_of_lt_base hsmall, hdigit]
      rfl
    | cons d ds =>
      have hnonzero : d ≠ '0' := by
        rintro rfl
        simpa using hlead rfl
      have hfront : ofNat (value (d :: ds)) = d :: ds :=
        ih ⟨by simp, fun x hx => hrun.2 x (List.mem_append_left _ hx)⟩ fun h =>
          absurd (Option.some.inj h) hnonzero
      have hlarge : 10 ≤ 10 * value (d :: ds) + (c.toNat - '0'.toNat) := by
        rcases Nat.eq_zero_or_pos (value (d :: ds)) with hzero | hpos
        · rw [hzero] at hfront
          exact absurd (List.cons.inj hfront).1.symm hnonzero
        · omega
      rw [ofNat, Nat.toDigits_of_base_le (by decide) hlarge, Nat.mul_add_div (by decide),
        Nat.div_eq_of_lt hsmall, Nat.add_zero, Nat.mul_add_mod, Nat.mod_eq_of_lt hsmall, hdigit]
      rw [ofNat] at hfront
      rw [hfront]

end Decimal

namespace Json

/-! ## Blanks -/

theorem skipBlanks_cons {c : Char} (cs : List Char) (hc : isBlank c = false) :
    skipBlanks (c :: cs) = c :: cs := by
  simp [skipBlanks, hc]

/-! ## Strings -/

/-- The letters of the short escapes, each with the character that it stands for. -/
def shortEscapes : List (Char × Char) :=
  [('"', '"'), ('\\', '\\'), ('/', '/'), ('b', '\x08'), ('f', '\x0c'), ('n', '\n'), ('r', '\r'),
    ('t', '\t')]

/-- A hexadecimal digit of either case, and its value. -/
def IsHex (c : Char) (d : Nat) : Prop :=
  d < 16 ∧ (c = Nat.digitChar d ∨ c = (Nat.digitChar d).toUpper)

/-- Four hexadecimal digits, and the unit that they name. -/
def NamesUnit (a b c d : Char) (u : Nat) : Prop :=
  ∃ p q r s, IsHex a p ∧ IsHex b q ∧ IsHex c r ∧ IsHex d s ∧ u = ((p * 16 + q) * 16 + r) * 16 + s

/-- How the contents of a string may be spelled between the quotes. -/
inductive Contents : Text → List Char → Prop where
  | nil : Contents [] []
  | raw {c : Char} {t : Text} {cs : List Char} : c ≠ '"' → c ≠ '\\' → 0x20 ≤ c.toNat →
    Contents t cs → Contents (.char c :: t) (c :: cs)
  | short {l c : Char} {t : Text} {cs : List Char} : (l, c) ∈ shortEscapes → Contents t cs →
    Contents (.char c :: t) ('\\' :: l :: cs)
  | unit {a b c d : Char} {u : Nat} {t : Text} {cs : List Char} : NamesUnit a b c d u →
    ¬ (0xD800 ≤ u ∧ u < 0xE000) → Contents t cs →
    Contents (.char (Char.ofNat u) :: t) ('\\' :: 'u' :: a :: b :: c :: d :: cs)
  | surrogate {a b c d : Char} {u : Nat} {t : Text} {cs : List Char} : NamesUnit a b c d u →
    0xD800 ≤ u ∧ u < 0xE000 → Contents t cs →
    Contents (.surrogate u :: t) ('\\' :: 'u' :: a :: b :: c :: d :: cs)

theorem shortEscape?_eq_some_iff {l c : Char} :
    shortEscape? l = some c ↔ (l, c) ∈ shortEscapes := by
  constructor
  · intro h
    unfold shortEscape? at h
    iterate 8
      split at h
      next hknown => subst hknown; cases h; decide
    cases h
  · intro h
    have hall : ∀ e ∈ shortEscapes, shortEscape? e.1 = some e.2 := by decide
    exact hall _ h

theorem hexValue?_eq_some_iff {c : Char} {d : Nat} : hexValue? c = some d ↔ IsHex c d := by
  constructor
  · intro h
    have hall : ∀ n < 103, ∀ d ∈ hexValue? (Char.ofNat n), d < 16 ∧
        (Char.ofNat n = Nat.digitChar d ∨ Char.ofNat n = (Nat.digitChar d).toUpper) := by
      decide
    have hcode : c.toNat < 103 := by
      by_contra hbeyond
      have hhigh : ∀ e : Char, e.toNat < 103 → ¬ c ≤ e := fun e he hle =>
        absurd (Nat.lt_of_le_of_lt (show c.toNat ≤ e.toNat from hle) he) hbeyond
      simp [hexValue?, hhigh '9' (by decide), hhigh 'f' (by decide), hhigh 'F' (by decide)] at h
    simpa [IsHex, Char.ofNat_toNat] using hall c.toNat hcode d (by rw [Char.ofNat_toNat, h]; rfl)
  · rintro ⟨hsmall, hspelled⟩
    have hall : ∀ d < 16, hexValue? (Nat.digitChar d) = some d ∧
        hexValue? (Nat.digitChar d).toUpper = some d := by decide
    rcases hspelled with rfl | rfl
    · exact (hall d hsmall).1
    · exact (hall d hsmall).2

theorem unit?_eq_some_iff {a b c d : Char} {u : Nat} :
    unit? a b c d = some u ↔ NamesUnit a b c d u := by
  simp only [unit?, Option.bind_eq_bind, Option.bind_eq_some_iff, Option.pure_def,
    Option.some.injEq, hexValue?_eq_some_iff, NamesUnit]
  constructor
  · rintro ⟨p, hp, q, hq, r, hr, s, hs, rfl⟩
    exact ⟨p, q, r, s, hp, hq, hr, hs, by omega⟩
  · rintro ⟨p, q, r, s, hp, hq, hr, hs, rfl⟩
    exact ⟨p, hp, q, hq, r, hr, s, hs, by omega⟩

theorem ofUnit_of_surrogate {u : Nat} (h : 0xD800 ≤ u ∧ u < 0xE000) :
    Piece.ofUnit u = .surrogate u := by
  simp [Piece.ofUnit, h]

theorem ofUnit_of_char {u : Nat} (h : ¬ (0xD800 ≤ u ∧ u < 0xE000)) :
    Piece.ofUnit u = .char (Char.ofNat u) :=
  if_neg (by simpa using h)

theorem Contents.ofUnit {a b c d : Char} {u : Nat} {t : Text} {cs : List Char}
    (hnamed : NamesUnit a b c d u) (h : Contents t cs) :
    Contents (Piece.ofUnit u :: t) ('\\' :: 'u' :: a :: b :: c :: d :: cs) := by
  by_cases hrange : 0xD800 ≤ u ∧ u < 0xE000
  · rw [ofUnit_of_surrogate hrange]
    exact .surrogate hnamed hrange h
  · rw [ofUnit_of_char hrange]
    exact .unit hnamed hrange h

theorem Contents.read {t : Text} {body : List Char} (h : Contents t body)
    (rest : List Char) : stringBody (body ++ '"' :: rest) = some (t, rest) := by
  induction h with
  | nil => exact stringBody.eq_2 rest
  | @raw c t cs hquote hslash hprinted _ ih =>
    have hplain : ¬ (c = '\\' ∨ c.toNat < 0x20) := by
      rintro (h | h)
      · exact hslash h
      · omega
    rw [List.cons_append, stringBody.eq_5 _ _ hquote (fun _ _ _ _ _ h => absurd h hslash)
      fun _ _ h => absurd h hslash, ih]
    simp [hplain]
  | @short l c t cs hknown _ ih =>
    have hletter : l ≠ 'u' := by
      rintro rfl
      revert hknown
      simp [shortEscapes]
    rw [List.cons_append, List.cons_append,
      stringBody.eq_4 _ _ fun _ _ _ _ _ h => absurd h hletter, shortEscape?_eq_some_iff.mpr hknown,
      ih]
    rfl
  | @unit a b c d u t cs hnamed hrange _ ih =>
    simp only [List.cons_append]
    rw [stringBody, unit?_eq_some_iff.mpr hnamed, ih]
    simp [ofUnit_of_char hrange]
  | @surrogate a b c d u t cs hnamed hrange _ ih =>
    simp only [List.cons_append]
    rw [stringBody, unit?_eq_some_iff.mpr hnamed, ih]
    simp [ofUnit_of_surrogate hrange]

theorem stringBody_sound {cs rest : List Char} {t : Text} (h : stringBody cs = some (t, rest)) :
    ∃ body, cs = body ++ '"' :: rest ∧ Contents t body := by
  fun_induction stringBody cs generalizing t rest with
  | case1 => cases h
  | case2 cs =>
    cases h
    exact ⟨[], rfl, .nil⟩
  | case3 a b c d cs ih =>
    simp only [Option.bind_eq_bind, Option.bind_eq_some_iff, Option.pure_def, Option.some.injEq,
      Prod.mk.injEq, Prod.exists] at h
    obtain ⟨u, hnamed, t, rest, hread, rfl, rfl⟩ := h
    obtain ⟨body, rfl, hcontents⟩ := ih hread
    exact ⟨_, rfl, .ofUnit (unit?_eq_some_iff.mp hnamed) hcontents⟩
  | case4 l cs _ ih =>
    simp only [Option.bind_eq_bind, Option.bind_eq_some_iff, Option.pure_def, Option.some.injEq,
      Prod.mk.injEq, Prod.exists] at h
    obtain ⟨c, hknown, t, rest, hread, rfl, rfl⟩ := h
    obtain ⟨body, rfl, hcontents⟩ := ih hread
    exact ⟨_, rfl, .short (shortEscape?_eq_some_iff.mp hknown) hcontents⟩
  | case5 => cases h
  | case6 c cs hquote _ _ hplain ih =>
    simp only [Option.map_eq_some_iff, Prod.mk.injEq, Prod.exists] at h
    obtain ⟨t, rest, hread, rfl, rfl⟩ := h
    obtain ⟨body, rfl, hcontents⟩ := ih hread
    simp only [Bool.or_eq_true, decide_eq_true_eq, not_or, Nat.not_lt] at hplain
    exact ⟨_, rfl, .raw hquote hplain.1 hplain.2 hcontents⟩

/-- What is read up to a closing quote are the contents of a string. -/
theorem stringBody_eq_some_iff {cs rest : List Char} {t : Text} :
    stringBody cs = some (t, rest) ↔ ∃ body, cs = body ++ '"' :: rest ∧ Contents t body := by
  constructor
  · exact stringBody_sound
  · rintro ⟨body, rfl, hcontents⟩
    exact hcontents.read rest

/-! ## Numbers -/

/-- A text that does not go on with what could belong to a number before it. -/
def EndsNumber (rest : List Char) : Prop :=
  ∀ c ∈ rest.head?, c.isDigit = false ∧ c ≠ '.' ∧ c ≠ 'e' ∧ c ≠ 'E'

theorem endsNumber_nil : EndsNumber [] := by
  intro c hc
  cases hc

theorem endsNumber_cons {c : Char} (rest : List Char)
    (hc : c.isDigit = false ∧ c ≠ '.' ∧ c ≠ 'e' ∧ c ≠ 'E') : EndsNumber (c :: rest) := by
  intro d hd
  cases hd
  exact hc

theorem EndsNumber.endsRun {rest : List Char} (h : EndsNumber rest) : Decimal.EndsRun rest :=
  fun c hc => (h c hc).1

/-- The sign of a number. -/
def sign (negative : Bool) : List Char :=
  if negative then ['-'] else []

/-- A fraction, or nothing. -/
def Fraction (cs : List Char) : Prop :=
  cs = [] ∨ ∃ ds, Decimal.IsRun ds ∧ cs = '.' :: ds

/-- An exponent, or nothing. -/
def Exponent (cs : List Char) : Prop :=
  cs = [] ∨ ∃ e sign ds, e ∈ ['e', 'E'] ∧ sign ∈ [[], ['+'], ['-']] ∧ Decimal.IsRun ds ∧
    cs = e :: (sign ++ ds)

/-- The documents without parts. -/
inductive Leaf where
  | null
  | bool (b : Bool)
  | integer (negative : Bool) (magnitude : Nat)
  | fractional
  | string (text : Text)
  deriving DecidableEq

namespace Leaf

/-- The document that a leaf is. -/
def json : Leaf → Json
  | .null => .null
  | .bool b => .bool b
  | .integer negative n => .integer negative n
  | .fractional => .fractional
  | .string t => .string t

/-- Whether a leaf is a number, which ends only where the text does not go on with it. -/
def isNumber : Leaf → Bool
  | .integer _ _ | .fractional => true
  | _ => false

/-- How a leaf may be spelled. -/
inductive Spells : Leaf → List Char → Prop where
  | null : Spells .null ['n', 'u', 'l', 'l']
  | yes : Spells (.bool true) ['t', 'r', 'u', 'e']
  | no : Spells (.bool false) ['f', 'a', 'l', 's', 'e']
  | integer (negative : Bool) (n : Nat) :
    Spells (.integer negative n) (sign negative ++ Decimal.ofNat n)
  | fractional (negative : Bool) (n : Nat) {f x : List Char} : Fraction f → Exponent x →
    f ++ x ≠ [] → Spells .fractional (sign negative ++ (Decimal.ofNat n ++ (f ++ x)))
  | string {t : Text} {body : List Char} : Contents t body →
    Spells (.string t) ('"' :: (body ++ ['"']))

end Leaf

theorem whole?_ofNat_append (n : Nat) {rest : List Char} (hends : Decimal.EndsRun rest) :
    whole? (Decimal.ofNat n ++ rest) = some (n, rest) := by
  have hspans : Decimal.span (Decimal.ofNat n ++ rest) = (Decimal.ofNat n, rest) :=
    Decimal.span_append_of_digits (fun _ => Decimal.isDigit_of_mem_ofNat) hends
  have hvalued := Decimal.value_ofNat n
  rw [whole?, hspans]
  rcases Nat.eq_zero_or_pos n with rfl | hpos
  · rfl
  · have hhead := Decimal.head?_ofNat_ne_zero hpos
    obtain ⟨c, cs, hdigits, -⟩ := Decimal.exists_ofNat n
    rw [hdigits] at hhead hvalued ⊢
    have hc : c ≠ '0' := by simpa using hhead
    simp [hc, hvalued]

theorem whole?_sound {cs rest : List Char} {n : Nat} (h : whole? cs = some (n, rest)) :
    cs = Decimal.ofNat n ++ rest ∧ Decimal.EndsRun rest := by
  unfold whole? at h
  split at h
  next => cases h
  next c ds rest' hspans =>
    split at h
    next => cases h
    next hlead =>
      cases h
      have hnumeral : Decimal.ofNat (Decimal.value (c :: ds)) = c :: ds := by
        refine Decimal.ofNat_value ⟨by simp, Decimal.isDigit_of_span hspans⟩ fun hzero => ?_
        obtain rfl : c = '0' := by simpa using hzero
        simpa using hlead
      rw [hnumeral]
      exact ⟨Decimal.append_of_span hspans, Decimal.endsRun_of_span hspans⟩

theorem fraction?_sound {cs rest : List Char} {found : Bool}
    (h : fraction? cs = some (found, rest)) (hends : Decimal.EndsRun cs) :
    ∃ f, cs = f ++ rest ∧ Fraction f ∧ (found = false ↔ f = []) ∧ Decimal.EndsRun rest := by
  unfold fraction? at h
  split at h
  next cs =>
    split at h
    next => cases h
    next ds rest' hsome hspans =>
      cases h
      refine ⟨'.' :: ds, by rw [Decimal.append_of_span hspans]; rfl, .inr ⟨ds, ?_, rfl⟩, by simp,
        Decimal.endsRun_of_span hspans⟩
      exact ⟨hsome, Decimal.isDigit_of_span hspans⟩
  next =>
    cases h
    exact ⟨[], rfl, .inl rfl, by simp, hends⟩

theorem skipSign_split (cs : List Char) :
    ∃ sign ∈ [[], ['+'], ['-']], cs = sign ++ skipSign cs := by
  unfold skipSign
  split
  · exact ⟨['+'], by simp, rfl⟩
  · exact ⟨['-'], by simp, rfl⟩
  · exact ⟨[], by simp, rfl⟩

theorem exponent?_sound {cs rest : List Char} {found : Bool}
    (h : exponent? cs = some (found, rest)) (hends : Decimal.EndsRun cs) :
    ∃ x, cs = x ++ rest ∧ Exponent x ∧ (found = false ↔ x = []) ∧ Decimal.EndsRun rest := by
  unfold exponent? at h
  split at h
  next c cs =>
    split at h
    next hletter =>
      split at h
      next => cases h
      next ds rest' hsome hspans =>
        cases h
        obtain ⟨sign, hknown, hsplit⟩ := skipSign_split cs
        refine ⟨c :: (sign ++ ds), ?_, .inr ⟨c, sign, ds, by simpa using hletter, hknown, ?_, rfl⟩,
          by simp, Decimal.endsRun_of_span hspans⟩
        · rw [List.cons_append, List.append_assoc, ← Decimal.append_of_span hspans, ← hsplit]
        · exact ⟨hsome, Decimal.isDigit_of_span hspans⟩
    next =>
      cases h
      exact ⟨[], rfl, .inl rfl, by simp, hends⟩
  next =>
    cases h
    exact ⟨[], rfl, .inl rfl, by simp, hends⟩

theorem unsigned?_sound {negative : Bool} {cs rest : List Char} {j : Json}
    (h : unsigned? negative cs = some (j, rest)) :
    ∃ (l : Leaf) (s : List Char), l.Spells (sign negative ++ s) ∧ l.json = j ∧
      l.isNumber = true ∧ cs = s ++ rest ∧ Decimal.EndsRun rest := by
  simp only [unsigned?, Option.bind_eq_bind, Option.bind_eq_some_iff, Option.pure_def,
    Option.some.injEq, Prod.mk.injEq, Prod.exists] at h
  obtain ⟨n, cs₁, hwhole, fraction, cs₂, hfraction, exponent, cs₃, hexponent, rfl, rfl⟩ := h
  obtain ⟨rfl, hends⟩ := whole?_sound hwhole
  obtain ⟨f, rfl, hisFraction, hnoFraction, hends⟩ := fraction?_sound hfraction hends
  obtain ⟨x, rfl, hisExponent, hnoExponent, hends⟩ := exponent?_sound hexponent hends
  by_cases hplain : f ++ x = []
  · obtain ⟨rfl, rfl⟩ := List.append_eq_nil_iff.mp hplain
    obtain rfl := hnoFraction.mpr rfl
    obtain rfl := hnoExponent.mpr rfl
    exact ⟨.integer negative n, Decimal.ofNat n, .integer negative n, rfl, rfl, rfl, hends⟩
  · refine ⟨.fractional, _, .fractional negative n hisFraction hisExponent hplain, ?_, rfl, by simp,
      hends⟩
    have hfound : (fraction || exponent) = true := by
      rw [← Bool.not_eq_false, Bool.or_eq_false_iff, hnoFraction, hnoExponent]
      exact fun hboth => hplain (List.append_eq_nil_iff.mpr hboth)
    simp [Leaf.json, hfound]

/-- What is read as a number is one, and no digit follows. -/
theorem number?_sound {cs rest : List Char} {j : Json} (h : number? cs = some (j, rest)) :
    ∃ (l : Leaf) (s : List Char), l.Spells s ∧ l.json = j ∧ l.isNumber = true ∧ cs = s ++ rest ∧
      Decimal.EndsRun rest := by
  unfold number? at h
  split at h
  next cs =>
    obtain ⟨l, s, hspells, rfl, hnumber, rfl, hends⟩ := unsigned?_sound h
    exact ⟨l, _, hspells, rfl, hnumber, rfl, hends⟩
  next =>
    obtain ⟨l, s, hspells, rfl, hnumber, rfl, hends⟩ := unsigned?_sound h
    exact ⟨l, _, hspells, rfl, hnumber, rfl, hends⟩

theorem fraction?_append {f rest : List Char} (h : Fraction f) (hends : Decimal.EndsRun rest)
    (hpoint : rest.head? ≠ some '.') : fraction? (f ++ rest) = some (decide (f ≠ []), rest) := by
  obtain rfl | ⟨ds, hrun, rfl⟩ := h
  · unfold fraction?
    split
    next heq => exact absurd (congrArg List.head? heq) hpoint
    next => simp
  · rw [List.cons_append, fraction?, Decimal.span_append_of_digits hrun.2 hends]
    cases ds with
    | nil => exact absurd rfl hrun.1
    | cons => rfl

theorem skipSign_append {sign ds rest : List Char} (hknown : sign ∈ [[], ['+'], ['-']])
    (hrun : Decimal.IsRun ds) : skipSign (sign ++ (ds ++ rest)) = ds ++ rest := by
  simp only [List.mem_cons, List.not_mem_nil, or_false] at hknown
  rcases hknown with rfl | rfl | rfl
  · cases ds with
    | nil => exact absurd rfl hrun.1
    | cons d ds =>
      have hdigit : d.isDigit = true := hrun.2 d List.mem_cons_self
      unfold skipSign
      split
      next heq =>
        obtain rfl : d = '+' := (List.cons.inj heq).1
        cases hdigit
      next heq =>
        obtain rfl : d = '-' := (List.cons.inj heq).1
        cases hdigit
      next => rfl
  · rfl
  · rfl

theorem exponent?_append {x rest : List Char} (h : Exponent x) (hends : EndsNumber rest) :
    exponent? (x ++ rest) = some (decide (x ≠ []), rest) := by
  obtain rfl | ⟨e, sign, ds, hletter, hknown, hrun, rfl⟩ := h
  · cases rest with
    | nil => rfl
    | cons c rest =>
      obtain ⟨-, -, hlower, hupper⟩ := hends c rfl
      simp [exponent?, hlower, hupper]
  · have hletter : (e = 'e' || e = 'E') = true := by simpa using hletter
    rw [List.cons_append, exponent?, if_pos hletter, List.append_assoc, skipSign_append hknown hrun,
      Decimal.span_append_of_digits hrun.2 hends.endsRun]
    cases ds with
    | nil => exact absurd rfl hrun.1
    | cons => rfl

/-- A number is read to its end where the text does not go on with it. -/
theorem unsigned?_append (negative : Bool) (n : Nat) {f x rest : List Char} (hf : Fraction f)
    (hx : Exponent x) (hends : EndsNumber rest) :
    unsigned? negative (Decimal.ofNat n ++ (f ++ x) ++ rest) =
      some (if f ++ x ≠ [] then .fractional else .integer negative n, rest) := by
  have hexponentEnds : Decimal.EndsRun (x ++ rest) ∧ (x ++ rest).head? ≠ some '.' := by
    obtain rfl | ⟨e, sign, ds, hletter, -, -, rfl⟩ := hx
    · exact ⟨hends.endsRun, fun hpoint => (hends '.' hpoint).2.1 rfl⟩
    · simp only [List.mem_cons, List.not_mem_nil, or_false] at hletter
      rcases hletter with rfl | rfl <;> simp [Decimal.EndsRun]
  have hfractionEnds : Decimal.EndsRun (f ++ (x ++ rest)) := by
    obtain rfl | ⟨ds, -, rfl⟩ := hf
    · exact hexponentEnds.1
    · simp [Decimal.EndsRun]
  rw [List.append_assoc, List.append_assoc, unsigned?, whole?_ofNat_append n hfractionEnds]
  simp only [Option.bind_eq_bind, Option.bind_some,
    fraction?_append hf hexponentEnds.1 hexponentEnds.2, exponent?_append hx hends]
  simp [Option.pure_def, imp_iff_not_or]

theorem number?_append (negative : Bool) (n : Nat) {f x rest : List Char} (hf : Fraction f)
    (hx : Exponent x) (hends : EndsNumber rest) :
    number? (sign negative ++ (Decimal.ofNat n ++ (f ++ x)) ++ rest) =
      some (if f ++ x ≠ [] then .fractional else .integer negative n, rest) := by
  have hunsigned := unsigned?_append negative n hf hx hends
  cases negative with
  | true => exact hunsigned
  | false =>
    rw [sign, if_neg Bool.false_ne_true, List.nil_append, ← hunsigned, number?.eq_2]
    intro cs hminus
    obtain ⟨c, ds, hdigits, hdigit⟩ := Decimal.exists_ofNat n
    rw [hdigits] at hminus
    obtain rfl : c = '-' := (List.cons.inj hminus).1
    cases hdigit

/-! ## Leaves -/

/-- A punctuation mark. -/
inductive Mark where
  | comma
  | colon
  | openArray
  | closeArray
  | openObject
  | closeObject
  deriving DecidableEq

/-- The character of a mark. -/
def Mark.char : Mark → Char
  | .comma => ','
  | .colon => ':'
  | .openArray => '['
  | .closeArray => ']'
  | .openObject => '{'
  | .closeObject => '}'

theorem Mark.char_inj {m m' : Mark} : m.char = m'.char → m = m' := by
  cases m <;> cases m' <;> decide

theorem afterWord?_append (word rest : List Char) : afterWord? word (word ++ rest) = some rest := by
  induction word with
  | nil => rfl
  | cons w word ih => rw [List.cons_append, afterWord?, if_pos rfl, ih]

theorem append_of_afterWord? {word cs rest : List Char} (h : afterWord? word cs = some rest) :
    cs = word ++ rest := by
  fun_induction afterWord? word cs with
  | case1 =>
    cases h
    rfl
  | case2 _ _ _ ih => rw [ih h, List.cons_append]
  | case3 | case4 => cases h

/-- The characters that start a value which is no number. -/
def starters : List Char := ['n', 't', 'f', '"', '[', '{']

theorem readValue_of_number {c : Char} (hother : c ∉ starters) (fuel : Nat) (cs : List Char) :
    readValue (fuel + 1) (c :: cs) = number? (c :: cs) := by
  simp only [starters, List.mem_cons, List.not_mem_nil, or_false, not_or] at hother
  obtain ⟨hn, ht, hf, hquote, hbracket, hbrace⟩ := hother
  rw [readValue, if_neg hn, if_neg ht, if_neg hf, if_neg hquote, if_neg hbracket, if_neg hbrace]

namespace Leaf

/-- The characters that start a leaf. -/
def IsStart (c : Char) : Prop :=
  c ∈ ['-', 'n', 't', 'f', '"'] ∨ c.isDigit = true

theorem IsStart.ne {c d : Char} (h : IsStart c) (hdigit : d.isDigit = false)
    (hother : d ∉ ['-', 'n', 't', 'f', '"']) : c ≠ d := by
  rintro rfl
  rcases h with hknown | hknown
  · exact hother hknown
  · rw [hdigit] at hknown
    cases hknown

/-- A number starts with a minus sign or a digit. -/
theorem Spells.head_of_number {l : Leaf} {s : List Char} (h : l.Spells s)
    (hnumber : l.isNumber = true) : ∃ c cs, s = c :: cs ∧ (c = '-' ∨ c.isDigit = true) := by
  have hsigned : ∀ negative n cs, ∃ d ds, sign negative ++ (Decimal.ofNat n ++ cs) = d :: ds ∧
      (d = '-' ∨ d.isDigit = true) := by
    intro negative n cs
    cases negative with
    | true => exact ⟨_, _, rfl, .inl rfl⟩
    | false =>
      obtain ⟨d, ds, hdigits, hdigit⟩ := Decimal.exists_ofNat n
      rw [hdigits]
      exact ⟨d, _, rfl, .inr hdigit⟩
  cases h with
  | integer negative n => simpa using hsigned negative n []
  | fractional negative n => exact hsigned negative n _
  | null | yes | no | string => cases hnumber

theorem Spells.head {l : Leaf} {s : List Char} (h : l.Spells s) :
    ∃ c cs, s = c :: cs ∧ IsStart c := by
  by_cases hnumber : l.isNumber = true
  · obtain ⟨c, cs, rfl, hminus | hdigit⟩ := h.head_of_number hnumber
    · exact ⟨c, cs, rfl, .inl (by simp [hminus])⟩
    · exact ⟨c, cs, rfl, .inr hdigit⟩
  · cases h with
    | integer | fractional => exact absurd rfl hnumber
    | null | yes | no | string => exact ⟨_, _, rfl, .inl (by decide)⟩

theorem Spells.number? {l : Leaf} {s rest : List Char} (h : l.Spells s)
    (hnumber : l.isNumber = true) (hends : EndsNumber rest) :
    number? (s ++ rest) = some (l.json, rest) := by
  cases h with
  | integer negative n =>
    have hread := number?_append negative n (.inl rfl) (.inl rfl) hends
    simpa [json] using hread
  | fractional negative n hf hx hsome =>
    rw [number?_append negative n hf hx hends, if_pos hsome]
    rfl
  | null | yes | no | string => cases hnumber

/-- A leaf is read wherever it stands, if a number is not gone on with. -/
theorem Spells.readValue {l : Leaf} {s rest : List Char} (h : l.Spells s)
    (hends : l.isNumber = true → EndsNumber rest) (fuel : Nat) :
    readValue (fuel + 1) (s ++ rest) = some (l.json, rest) := by
  by_cases hnumber : l.isNumber = true
  · have hread := h.number? hnumber (hends hnumber)
    obtain ⟨c, cs, rfl, hfirst⟩ := h.head_of_number hnumber
    have hother : c ∉ starters := by
      rcases hfirst with rfl | hfirst
      · decide
      · intro hknown
        have hnone : ∀ d ∈ starters, d.isDigit = false := by simp [starters]
        rw [hnone c hknown] at hfirst
        cases hfirst
    rw [List.cons_append] at hread ⊢
    rw [readValue_of_number hother, hread]
  · cases h with
    | integer | fractional => exact absurd rfl hnumber
    | null => exact congrArg (Option.map _) (afterWord?_append ['u', 'l', 'l'] rest)
    | yes => exact congrArg (Option.map _) (afterWord?_append ['r', 'u', 'e'] rest)
    | no => exact congrArg (Option.map _) (afterWord?_append ['a', 'l', 's', 'e'] rest)
    | string hcontents =>
      have hbody := hcontents.read rest
      rw [List.cons_append, List.append_assoc]
      exact congrArg (Option.map _) hbody

end Leaf

/-- What is read as a value, and starts no array and no object, is a leaf. -/
theorem readValue_leaf {fuel : Nat} {c : Char} {cs rest : List Char} {j : Json}
    (h : readValue (fuel + 1) (c :: cs) = some (j, rest)) (hbracket : c ≠ '[') (hbrace : c ≠ '{') :
    ∃ (l : Leaf) (s : List Char), l.Spells s ∧ l.json = j ∧ c :: cs = s ++ rest ∧
      (l.isNumber = true → Decimal.EndsRun rest) := by
  by_cases hother : c ∉ starters
  · rw [readValue_of_number hother] at h
    obtain ⟨l, s, hspells, rfl, -, hsplit, hends⟩ := number?_sound h
    exact ⟨l, s, hspells, rfl, hsplit, fun _ => hends⟩
  · simp only [starters, List.mem_cons, List.not_mem_nil, or_false, not_not, hbracket,
      hbrace] at hother
    rcases hother with rfl | rfl | rfl | rfl
    all_goals
      obtain ⟨found, hread, hsame⟩ := Option.map_eq_some_iff.mp h
      cases hsame
    · exact ⟨.null, _, .null, rfl, congrArg _ (append_of_afterWord? hread), nofun⟩
    · exact ⟨.bool true, _, .yes, rfl, congrArg _ (append_of_afterWord? hread), nofun⟩
    · exact ⟨.bool false, _, .no, rfl, congrArg _ (append_of_afterWord? hread), nofun⟩
    · obtain ⟨body, hsplit, hcontents⟩ := stringBody_sound hread
      exact ⟨.string found.1, _, .string hcontents, rfl, by simp [hsplit], nofun⟩

end Json

end Relay

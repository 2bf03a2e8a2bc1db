/-!
# Decimal numerals

Integers are written without leading zeros and read back from runs of ASCII digits.
`Decimal.value_ofNat` says that reading what was written gives the number back, and
`Decimal.isDigit_of_mem_ofNat` that a written natural number holds nothing but digits.
-/

namespace Relay.Decimal

/-- The decimal digits of `n`, most significant first. -/
def ofNat (n : Nat) : List Char :=
  Nat.toDigits 10 n

/-- The decimal text of `i`: a minus sign for a negative number, then the digits. -/
def ofInt : Int → List Char
  | .ofNat n => ofNat n
  | .negSucc n => '-' :: ofNat (n + 1)

/-- The number that a run of decimal digits stands for. -/
def value (digits : List Char) : Nat :=
  Nat.ofDigitChars 10 digits 0

/-- The longest run of ASCII digits at the front of `cs`, and what follows it. -/
def span (cs : List Char) : List Char × List Char :=
  (cs.takeWhile Char.isDigit, cs.dropWhile Char.isDigit)

/-- The decimal text of `n` as a string. -/
def text (n : Nat) : String :=
  String.ofList (ofNat n)

theorem value_ofNat (n : Nat) : value (ofNat n) = n :=
  Nat.ofDigitChars_toDigits (by decide) (by decide)

theorem isDigit_of_mem_ofNat {n : Nat} {c : Char} (h : c ∈ ofNat n) : c.isDigit = true :=
  Nat.isDigit_of_mem_toDigits (by decide) (by decide) h

theorem not_mem_ofNat {n : Nat} {c : Char} (hother : c.isDigit = false) : c ∉ ofNat n := by
  intro h
  rw [isDigit_of_mem_ofNat h] at hother
  cases hother

/-- A numeral starts with a digit. -/
theorem exists_ofNat (n : Nat) : ∃ c cs, ofNat n = c :: cs ∧ c.isDigit = true := by
  obtain ⟨c, cs, hdigits⟩ := List.exists_cons_of_ne_nil (Nat.toDigits_ne_nil : ofNat n ≠ [])
  exact ⟨c, cs, hdigits, isDigit_of_mem_ofNat (hdigits ▸ List.mem_cons_self)⟩

theorem span_append (cs : List Char) : (span cs).1 ++ (span cs).2 = cs :=
  List.takeWhile_append_dropWhile

end Relay.Decimal

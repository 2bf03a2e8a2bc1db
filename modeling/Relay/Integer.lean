/-!
# Integer kinds

The nine fixed-width integer kinds and their values. A value carries the proof that it lies in
the range of its kind, so reading, sorting and printing never have to ask again.
-/

namespace Relay

/-- The kinds of fixed-width integers. `size` is as wide as an address. -/
inductive IntKind where
  | char | uchar | short | ushort | int | uint | long | ulong | size
  deriving DecidableEq, Repr

namespace IntKind

/-- The width in bytes. -/
def bytes : IntKind → Nat
  | .char | .uchar => 1
  | .short | .ushort => 2
  | .int | .uint => 4
  | .long | .ulong | .size => 8

/-- Whether the kind has negative values. -/
def signed : IntKind → Bool
  | .char | .short | .int | .long => true
  | .uchar | .ushort | .uint | .ulong | .size => false

/-- The least value. -/
def least (k : IntKind) : Int :=
  if k.signed then -(Nat.pow 2 (8 * k.bytes - 1) : Nat) else 0

/-- The greatest value. -/
def greatest (k : IntKind) : Int :=
  (Nat.pow 2 (if k.signed then 8 * k.bytes - 1 else 8 * k.bytes) : Nat) - 1

/-- Whether `i` lies in the range of the kind. -/
def Fits (k : IntKind) (i : Int) : Prop :=
  k.least ≤ i ∧ i ≤ k.greatest

instance (k : IntKind) (i : Int) : Decidable (k.Fits i) :=
  inferInstanceAs (Decidable (_ ∧ _))

/-- The values of a kind. -/
def Value (k : IntKind) : Type :=
  { i : Int // k.Fits i }

instance (k : IntKind) : DecidableEq k.Value :=
  inferInstanceAs (DecidableEq { i : Int // k.Fits i })

/-- The value of the kind that equals `i`, if there is one. -/
def ofInt? (k : IntKind) (i : Int) : Option k.Value :=
  if h : k.Fits i then some ⟨i, h⟩ else none

/-- The order of the values of a kind. -/
def Value.le {k : IntKind} (a b : k.Value) : Bool :=
  decide (a.val ≤ b.val)

theorem zero_fits (k : IntKind) : k.Fits 0 := by
  cases k <;> decide

instance (k : IntKind) : Inhabited k.Value := ⟨⟨0, k.zero_fits⟩⟩

theorem int_fits_iff {i : Int} : IntKind.int.Fits i ↔ -2147483648 ≤ i ∧ i ≤ 2147483647 :=
  Iff.rfl

theorem long_fits_iff {i : Int} :
    IntKind.long.Fits i ↔ -9223372036854775808 ≤ i ∧ i ≤ 9223372036854775807 :=
  Iff.rfl

theorem ofInt?_val {k : IntKind} (v : k.Value) : k.ofInt? v.val = some v :=
  dif_pos v.property

end IntKind

/-- The 32-bit signed integers, which the sorting program works on. -/
abbrev Int32Value : Type := IntKind.int.Value

end Relay

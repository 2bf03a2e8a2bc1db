import Relay.Arm
import Relay.Shape.Basic

/-!
# Inline layout

How many bytes the inline block of a value takes. A list is a header of three words whose first
word never uses its upper half. A product lays the part of the larger alignment first. A sum
stores which arm is live in bit patterns that its larger arm never uses, if the other arm fits
beside them, and in a tag of its own otherwise.
-/

namespace Relay

/-- Bit patterns that no value uses: `spare` of them, in `width` bytes from `offset` on. -/
structure Niche where
  offset : Nat
  width : Nat
  spare : Nat
  deriving DecidableEq, Repr

/-- The inline block of a type: its bytes, its alignment and its largest niche. -/
structure Layout where
  size : Nat
  align : Nat
  niche : Option Niche
  deriving DecidableEq, Repr

namespace Layout

/-- The least multiple of `align` that is at least `n`. -/
def roundUp (n align : Nat) : Nat :=
  (n + align - 1) / align * align

/-- How many bit patterns of a layout are free. -/
def spare (l : Layout) : Nat :=
  (l.niche.map Niche.spare).getD 0

/-- The block of the unit. -/
def unit : Layout := ⟨0, 1, none⟩

/-- The block of a primitive type. A truth value leaves all patterns but two unused. -/
def prim : Prim → Layout
  | .bool => ⟨1, 1, some ⟨0, 1, 254⟩⟩
  | .integer kind => ⟨kind.bytes, kind.bytes, none⟩
  | .float => ⟨4, 4, none⟩
  | .double => ⟨8, 8, none⟩

/-- The block of a list: capacity, address and length. A capacity never has its top bit set. -/
def list : Layout := ⟨24, 8, some ⟨0, 8, 0x8000000000000000⟩⟩

/-- The block of two parts, the first of them at its front. -/
def inOrder (a b : Layout) : Layout :=
  let start := roundUp a.size b.align
  let align := max a.align b.align
  let niche :=
    if a.spare < b.spare then b.niche.map fun n => { n with offset := start + n.offset }
    else a.niche
  ⟨roundUp (start + b.size) align, align, niche⟩

/-- The block of a product. -/
def prod (a b : Layout) : Layout :=
  if a.align < b.align || (a.align = b.align && a.spare < b.spare) then inOrder b a
  else inOrder a b

/-- Whether a block fits into one of `size` bytes without touching the niche. -/
def fitsBeside (other : Layout) (size : Nat) (n : Niche) : Bool :=
  other.size ≤ n.offset || roundUp (n.offset + n.width) other.align + other.size ≤ size

/-- The block of a sum that marks the smaller arm in the niche of the larger one. -/
def nicheSum? (a b : Layout) : Option Layout := do
  let (large, small) := if b.size < a.size then (a, b) else (b, a)
  let n ← large.niche
  if 1 ≤ n.spare && fitsBeside small large.size n then
    some ⟨large.size, max a.align b.align, some { n with spare := n.spare - 1 }⟩
  else none

/-- The width of the tag of a sum: as wide as every arm that takes space leaves room for before
its first byte, at most a word. -/
def tagWidth (a b : Layout) : Nat :=
  match (if a.size = 0 then [] else [a.align]) ++ (if b.size = 0 then [] else [b.align]) with
  | [] => 1
  | x :: xs => xs.foldl min x

/-- The block of a sum with a tag of its own. -/
def taggedSum (a b : Layout) : Layout :=
  let width := tagWidth a b
  let align := max width (max a.align b.align)
  let size := max (max width (roundUp width a.align + a.size)) (roundUp width b.align + b.size)
  ⟨roundUp size align, align, some ⟨0, width, Nat.pow 2 (8 * width) - 2⟩⟩

/-- The block of a sum: the smaller of the two ways, or of equal sizes the one that leaves more
patterns free, the tag if that is equal too. -/
def sum (a b : Layout) : Layout :=
  let tagged := taggedSum a b
  match nicheSum? a b with
  | some inNiche =>
    if inNiche.size < tagged.size || (inNiche.size = tagged.size && tagged.spare < inNiche.spare)
    then inNiche else tagged
  | none => tagged

end Layout

namespace DataType

/-- The inline block of a type. -/
def layout : DataType → Layout
  | .unit => .unit
  | .prim p => .prim p
  | .list _ => .list
  | .sum left right => .sum left.layout right.layout
  | .prod fst snd => .prod fst.layout snd.layout

/-- The bytes of the inline block of a type. -/
def inlineSize (t : DataType) : Nat := t.layout.size

/-- The bytes of storage that can be addressed at all. -/
def addressable : Nat := 0x800000000000

/-- Reserves storage for exactly `n` elements: an empty list, or the fault that so many elements
cannot be addressed. -/
def reserve? (t : DataType) (n : Nat) {α : Type} : Except ValueFault (List α) :=
  if n * t.inlineSize < addressable then .ok [] else .error (.allocation n)

end DataType

end Relay

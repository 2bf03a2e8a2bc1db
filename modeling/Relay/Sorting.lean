import Relay.Form

/-!
# Sorting whole and by halves

`sort` is the stable sort by a comparison that tells whether one item may stand before another.
`halve?`, `sortHalves` and `merge` do the same work in three parts: split a list in the middle,
sort both halves, and merge them with the left one going first among equals. The empty and the
one-item list have arms of their own, as they need no merging. `halve?_eq_some` says that the
middle of a list never lies beyond its end, and `mergeOnto_eq_append` what the merging loop adds to
what it has put together.
-/

namespace Relay

/-- A list taken apart: nothing, a single item, or two halves. -/
abbrev Halves (α : Type) : Type := (Unit ⊕ α) ⊕ (List α × List α)

/-- A result that may have been refused. -/
abbrev Checked (α : Type) : Type := Unit ⊕ α

variable {α : Type}

/-- The items in order, equal ones as they stood. -/
def sort (le : α → α → Bool) (l : List α) : List α :=
  l.mergeSort le

/-- The items before an index and those from it on; `none` if the index lies beyond the end. -/
def splitAt? (l : List α) (i : Nat) : Option (List α × List α) :=
  if i ≤ l.length then some (l.splitAt i) else none

/-- Splits a list in the middle, going by its length; of an odd number the second half gets one
more. `none` if the middle lies beyond the end. -/
def halve? (l : List α) : Option (Halves α) :=
  match l.length with
  | 0 => some (.inl (.inl ()))
  | 1 =>
    match l.head? with
    | some x => some (.inl (.inr x))
    | none => some (.inl (.inl ()))
  | n => (splitAt? l (n / 2)).map .inr

/-- What a list is split into. -/
def halve : List α → Halves α
  | [] => .inl (.inl ())
  | [x] => .inl (.inr x)
  | l => .inr (l.splitAt (l.length / 2))

/-- Every list can be split. -/
theorem halve?_eq_some (l : List α) : halve? l = some (halve l) := by
  match l with
  | [] => rfl
  | [_] => rfl
  | x :: y :: l =>
    have hmiddle : (x :: y :: l).length / 2 ≤ (x :: y :: l).length := Nat.div_le_self _ 2
    exact congrArg (Option.map Sum.inr) (if_pos hmiddle)

/-- Sorts both halves. -/
def sortHalves (le : α → α → Bool) : Halves α → Halves α
  | .inl small => .inl small
  | .inr (a, b) => .inr (sort le a, sort le b)

/-- Puts the items of two lists behind those of `out`. At each step the first item of the second
list is taken only if it comes strictly before that of the first one. -/
def mergeOnto (le : α → α → Bool) (out : Array α) : List α → List α → List α
  | x :: a, y :: b =>
    if le x y then mergeOnto le (out.push x) a (y :: b) else mergeOnto le (out.push y) (x :: a) b
  | x :: a, [] => mergeOnto le (out.push x) a []
  | [], y :: b => mergeOnto le (out.push y) [] b
  | [], [] => out.toList
termination_by a b => a.length + b.length

theorem mergeOnto_eq_append (le : α → α → Bool) (out : Array α) (a b : List α) :
    mergeOnto le out a b = out.toList ++ a.merge b le := by
  fun_induction mergeOnto le out a b with
  | case1 out x a y b hfirst ih => simp [ih, hfirst]
  | case2 out x a y b hfirst ih => simp [ih, hfirst]
  | case3 out x a ih => simp [ih]
  | case4 out y b ih => simp [ih]
  | case5 out => simp

/-- Puts a list together. -/
def merge (le : α → α → Bool) : Halves α → List α
  | .inl (.inl ()) => []
  | .inl (.inr x) => [x]
  | .inr (a, b) => mergeOnto le #[] a b

/-- Sorts a list of at most `limit` items and refuses a longer one. -/
def checkedSort (le : α → α → Bool) (limit : Nat) (l : List α) : Checked (List α) :=
  if limit < l.length then .inl () else .inr (sort le l)

/-- The form of lists of 32-bit integers. -/
def Form.ints : Form := .list (.integer .int)

/-- The form of halves over an item form. -/
def Form.halves (item : Form) : Form :=
  .sum (.sum .unit item) (.prod (.list item) (.list item))

end Relay

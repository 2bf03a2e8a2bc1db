import Relay.Proofs.Sorting.Stable

/-!
# Merging any two halves

A weave of two lists is one list in which each item is marked with the side that it comes from. A
merge makes a weave of its halves, in order or not.

* `exists_weave`: what the merging loop adds to what it has put together is a weave in which the
  sides take turns by the comparison;
* `Turns.left_first`: where the halves are in order, equivalent items of the left one come first;
* `merge_weaves_halves`: the merge of any two halves, and that of two halves in order.
-/

namespace Relay

variable {α : Type} {le : α → α → Bool}

/-- Whether an item has to stand before another one. -/
def strictlyBefore (le : α → α → Bool) (a b : α) : Bool :=
  le a b && !le b a

/-! ## Weaves -/

/-- An item without the mark of its side. -/
def unmarked : α ⊕ α → α :=
  Sum.elim id id

/-- The items that come from the left side. -/
def lefts (w : List (α ⊕ α)) : List α :=
  w.filterMap Sum.getLeft?

/-- The items that come from the right side. -/
def rights (w : List (α ⊕ α)) : List α :=
  w.filterMap Sum.getRight?

@[simp] theorem lefts_cons_inl (x : α) (w : List (α ⊕ α)) : lefts (.inl x :: w) = x :: lefts w :=
  rfl

@[simp] theorem lefts_cons_inr (y : α) (w : List (α ⊕ α)) : lefts (.inr y :: w) = lefts w :=
  rfl

@[simp] theorem rights_cons_inl (x : α) (w : List (α ⊕ α)) : rights (.inl x :: w) = rights w :=
  rfl

@[simp] theorem rights_cons_inr (y : α) (w : List (α ⊕ α)) :
    rights (.inr y :: w) = y :: rights w :=
  rfl

/-- A weave of two lists: its places fall into those of the left side, which read as the one list,
and those of the right side, which read as the other. -/
structure Weave (a b : List α) (w : List (α ⊕ α)) : Prop where
  left : lefts w = a
  right : rights w = b

/-- Whether an item may be placed next, given what comes after it: it is compared with the first
item that the other side has left, if any. -/
def InTurn (le : α → α → Bool) : α ⊕ α → List (α ⊕ α) → Prop
  | .inl x, rest => ∀ y ∈ (rights rest).head?, le x y = true
  | .inr y, rest => ∀ x ∈ (lefts rest).head?, le x y = false

/-- The sides of a weave take turns by a comparison. -/
def Turns (le : α → α → Bool) (w : List (α ⊕ α)) : Prop :=
  ∀ s rest, s :: rest <:+ w → InTurn le s rest

theorem Turns.nil : Turns le ([] : List (α ⊕ α)) := by
  intro s rest hfound
  simp at hfound

theorem Turns.cons {s : α ⊕ α} {w : List (α ⊕ α)} (h : Turns le w) (hturn : InTurn le s w) :
    Turns le (s :: w) := by
  intro t rest hfound
  rcases List.suffix_cons_iff.mp hfound with heq | hlater
  · obtain ⟨rfl, rfl⟩ := List.cons.inj heq
    exact hturn
  · exact h t rest hlater

/-! ## What a merge makes -/

/-- The merging loop puts a weave of the items that are left behind what it has put together. -/
theorem exists_weave (le : α → α → Bool) (out : Array α) (a b : List α) :
    ∃ w, Weave a b w ∧ Turns le w ∧ mergeOnto le out a b = out.toList ++ w.map unmarked := by
  fun_induction mergeOnto le out a b with
  | case1 out x a y b hfirst ih =>
    obtain ⟨w, ⟨rfl, hright⟩, hturns, heq⟩ := ih
    refine ⟨.inl x :: w, ⟨rfl, hright⟩, hturns.cons ?_, by simp [heq, unmarked]⟩
    simpa [InTurn, hright] using hfirst
  | case2 out x a y b hfirst ih =>
    obtain ⟨w, ⟨hleft, rfl⟩, hturns, heq⟩ := ih
    refine ⟨.inr y :: w, ⟨hleft, rfl⟩, hturns.cons ?_, by simp [heq, unmarked]⟩
    simpa [InTurn, hleft] using hfirst
  | case3 out x a ih =>
    obtain ⟨w, ⟨rfl, hright⟩, hturns, heq⟩ := ih
    refine ⟨.inl x :: w, ⟨rfl, hright⟩, hturns.cons ?_, by simp [heq, unmarked]⟩
    simp [InTurn, hright]
  | case4 out y b ih =>
    obtain ⟨w, ⟨hleft, rfl⟩, hturns, heq⟩ := ih
    refine ⟨.inr y :: w, ⟨hleft, rfl⟩, hturns.cons ?_, by simp [heq, unmarked]⟩
    simp [InTurn, hleft]
  | case5 out => exact ⟨[], ⟨rfl, rfl⟩, .nil, by simp⟩

theorem length_merge (le : α → α → Bool) (a b : List α) :
    (merge le (.inr (a, b))).length = a.length + b.length := by
  rw [merge, mergeOnto_eq_append, List.nil_append, List.length_merge]

theorem TotalPreorder.strictlyBefore (horder : TotalPreorder le) {x y : α} (h : le x y = false) :
    strictlyBefore le y x = true := by
  have hother : le y x = true := by simpa [h] using horder.total x y
  simp [Relay.strictlyBefore, h, hother]

/-- If the left side is in order, no item of it is equivalent to one of the right side that stands
before it. -/
theorem Turns.left_first {a b : List α} {w rest : List (α ⊕ α)} {x y : α} (hturns : Turns le w)
    (horder : TotalPreorder le) (hweave : Weave a b w) (ha : Ordered le a)
    (hfound : .inr y :: rest <:+ w) (hx : x ∈ lefts rest) : equivalent le y x = false := by
  have hsuffix : lefts rest <:+ a := by
    rw [← hweave.left]
    exact ((List.suffix_cons _ _).trans hfound).filterMap _
  have hordered : Ordered le (lefts rest) := ha.sublist hsuffix.sublist
  have hturn : InTurn le (.inr y) rest := hturns _ _ hfound
  cases hrest : lefts rest with
  | nil => simp [hrest] at hx
  | cons z zs =>
    rw [hrest] at hx hordered
    rw [InTurn, hrest] at hturn
    have hlater : le z y = false := hturn z rfl
    by_contra hboth
    simp only [equivalent, Bool.not_eq_false, Bool.and_eq_true] at hboth
    have hfirst := horder.trans z x y (hordered.head_le horder hx) hboth.2
    rw [hlater] at hfirst
    cases hfirst

/-- **A merge weaves its halves**, whatever they hold and whatever they are compared by. If any two
items can be put in order, an item of the right half goes before what is left of the left one only
if it has to, and an item of the left half goes before what is left of the right one only if it may.
Then the merge of two halves in order is the sorted list, with equivalent items of the left half
first. -/
theorem merge_weaves_halves (le : α → α → Bool) (a b : List α) :
    (merge le (.inr (a, b))).length = a.length + b.length ∧
    ∃ w, Weave a b w ∧ merge le (.inr (a, b)) = w.map unmarked ∧ Turns le w ∧
      (TotalPreorder le →
        (∀ x rest, .inl x :: rest <:+ w →
          ∀ y ∈ (rights rest).head?, strictlyBefore le y x = false) ∧
        (∀ y rest, .inr y :: rest <:+ w →
          ∀ x ∈ (lefts rest).head?, strictlyBefore le y x = true) ∧
        (Ordered le a → Ordered le b →
          Ordered le (merge le (.inr (a, b))) ∧ merge le (.inr (a, b)) = sort le (a ++ b) ∧
          ∀ y rest, .inr y :: rest <:+ w → ∀ x ∈ lefts rest, equivalent le y x = false)) := by
  obtain ⟨w, hweave, hturns, hmerged⟩ := exists_weave le #[] a b
  refine ⟨length_merge le a b, w, hweave, hmerged, hturns, fun horder => ⟨?_, ?_, fun ha hb => ?_⟩⟩
  · intro x rest hfound y hnext
    have hmay : le x y = true := hturns (.inl x) rest hfound y hnext
    simp [strictlyBefore, hmay]
  · intro y rest hfound x hnext
    exact horder.strictlyBefore (hturns (.inr y) rest hfound x hnext)
  · have hstable : IsStableSort le (a ++ b) (merge le (.inr (a, b))) := by
      rw [merge, mergeOnto_eq_append]
      exact isStableSort_merge horder ha hb
    refine ⟨hstable.ordered, hstable.unique horder (isStableSort_sort horder _), ?_⟩
    exact fun y rest hfound x hx => hturns.left_first horder hweave ha hfound hx

/-- Two halves in order that share their first parts. -/
theorem merge_weaves_halves_specimen :
    let a := [(1, 'a'), (2, 'b')]
    let b := [(1, 'c'), (2, 'd')]
    TotalPreorder byFirst ∧ Ordered byFirst a ∧ Ordered byFirst b ∧
      sort byFirst (a ++ b) = [(1, 'a'), (1, 'c'), (2, 'b'), (2, 'd')] := by
  intro a b
  have ha : Ordered byFirst a := by decide
  have hb : Ordered byFirst b := by decide
  obtain ⟨-, w, -, -, -, hhalves⟩ := merge_weaves_halves byFirst a b
  have hsorted := ((hhalves byFirst_totalPreorder).2.2 ha hb).2.1
  refine ⟨byFirst_totalPreorder, ha, hb, hsorted.symm.trans ?_⟩
  simp [a, b, merge, mergeOnto, byFirst]

end Relay

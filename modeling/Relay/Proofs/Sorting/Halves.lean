import Mathlib.Logic.Function.Basic
import Relay.Proofs.Sorting.Stable

/-!
# Halves in balance

What a list is split into holds its items from left to right (`Halves.items`), and it is in balance
(`Halves.Balanced`), so that the items tell where the split is.

* `halve_eq_inr_iff`: which two halves a list is split into;
* `items_halve`, `halve_items`: splitting loses nothing, and all that is in balance is what a list
  is split into;
* `Halves.Balanced.sortHalves`: sorting both halves keeps the balance;
* `merge_halve`: merging undoes the split of a list that is in order;
* `splits_in_balance`: all of this together.
-/

namespace Relay

variable {α : Type} {le : α → α → Bool} {l a b : List α} {h : Halves α}

namespace Halves

/-- The items from left to right. -/
def items : Halves α → List α
  | .inl (.inl ()) => []
  | .inl (.inr x) => [x]
  | .inr (a, b) => a ++ b

/-- Neither half is empty, and the second one holds as many items as the first one, or one more. -/
def Balanced : Halves α → Prop
  | .inl _ => True
  | .inr (a, b) => a ≠ [] ∧ b ≠ [] ∧ a.length ≤ b.length ∧ b.length ≤ a.length + 1

/-- The live arms, with the sizes of the halves in place of the items. -/
def sizes : Halves α → (Unit ⊕ Unit) ⊕ (Nat × Nat)
  | .inl (.inl ()) => .inl (.inl ())
  | .inl (.inr _) => .inl (.inr ())
  | .inr (a, b) => .inr (a.length, b.length)

end Halves

/-! ## Splitting -/

theorem halve_of_two_le (htwo : 2 ≤ l.length) :
    halve l = .inr (l.take (l.length / 2), l.drop (l.length / 2)) := by
  match l, htwo with
  | x :: y :: l, _ => exact congrArg Sum.inr (List.splitAt_eq ..)

theorem halve_eq_nothing_iff : halve l = .inl (.inl ()) ↔ l = [] := by
  match l with
  | [] | [_] | _ :: _ :: _ => simp [halve]

theorem halve_eq_single_iff {x : α} : halve l = .inl (.inr x) ↔ l = [x] := by
  match l with
  | [] | [_] | _ :: _ :: _ => simp [halve]

/-- A list of two items or more is split such that the first half gets half of the items, rounded
down. -/
theorem halve_eq_inr_iff :
    halve l = .inr (a, b) ↔ 2 ≤ l.length ∧ a ++ b = l ∧ a.length = l.length / 2 := by
  constructor
  · intro hsplit
    have htwo : 2 ≤ l.length := by
      match l, hsplit with
      | _ :: _ :: _, _ => simp
    rw [halve_of_two_le htwo] at hsplit
    cases hsplit
    refine ⟨htwo, List.take_append_drop .., ?_⟩
    rw [List.length_take]
    omega
  · rintro ⟨htwo, rfl, hhalf⟩
    rw [halve_of_two_le htwo, ← hhalf, List.take_left, List.drop_left]

theorem items_halve (l : List α) : Halves.items (halve l) = l := by
  match l with
  | [] | [_] => rfl
  | x :: y :: l =>
    rw [halve_of_two_le (by simp)]
    exact List.take_append_drop ..

theorem balanced_halve (l : List α) : Halves.Balanced (halve l) := by
  cases hsplit : halve l with
  | inl small => trivial
  | inr halves =>
    obtain ⟨a, b⟩ := halves
    obtain ⟨htwo, rfl, hhalf⟩ := halve_eq_inr_iff.mp hsplit
    rw [List.length_append] at htwo hhalf
    refine ⟨?_, ?_, by omega, by omega⟩ <;> rw [← List.length_pos_iff] <;> omega

/-- What is in balance is what its items are split into. -/
theorem halve_items (hbalanced : h.Balanced) : halve h.items = h := by
  match h, hbalanced with
  | .inl (.inl ()), _ => rfl
  | .inl (.inr x), _ => rfl
  | .inr (a, b), ⟨hleft, _, hlow, hhigh⟩ =>
    have hpos : 0 < a.length := List.length_pos_iff.mpr hleft
    refine halve_eq_inr_iff.mpr ⟨?_, rfl, ?_⟩ <;> simp only [Halves.items, List.length_append] <;>
      omega

/-! ## Sorting both halves, and merging -/

theorem length_sort (le : α → α → Bool) (l : List α) : (sort le l).length = l.length :=
  List.length_mergeSort l

theorem sizes_sortHalves (le : α → α → Bool) (h : Halves α) :
    Halves.sizes (sortHalves le h) = h.sizes := by
  match h with
  | .inl (.inl ()) | .inl (.inr x) => rfl
  | .inr (a, b) => simp only [sortHalves, Halves.sizes, length_sort]

theorem sort_ne_nil (hany : l ≠ []) : sort le l ≠ [] := by
  rwa [Ne, ← List.length_eq_zero_iff, length_sort, List.length_eq_zero_iff]

theorem Halves.Balanced.sortHalves (hbalanced : h.Balanced) (le : α → α → Bool) :
    Halves.Balanced (sortHalves le h) := by
  match h, hbalanced with
  | .inl small, _ => trivial
  | .inr (a, b), ⟨hleft, hright, hlow, hhigh⟩ =>
    refine ⟨sort_ne_nil hleft, sort_ne_nil hright, ?_, ?_⟩ <;> simpa only [length_sort]

/-- Halves in order are left as they are. -/
theorem sortHalves_eq_self (horder : TotalPreorder le) (ha : Ordered le a) (hb : Ordered le b) :
    sortHalves le (.inr (a, b)) = .inr (a, b) := by
  rw [sortHalves, (sort_eq_self_iff horder).mpr ha, (sort_eq_self_iff horder).mpr hb]

theorem sortHalves_sortHalves (horder : TotalPreorder le) (h : Halves α) :
    sortHalves le (sortHalves le h) = sortHalves le h := by
  match h with
  | .inl small => rfl
  | .inr (a, b) =>
    exact sortHalves_eq_self horder (isStableSort_sort horder a).ordered
      (isStableSort_sort horder b).ordered

theorem sortHalves_halve (horder : TotalPreorder le) (hordered : Ordered le l) :
    sortHalves le (halve l) = halve l := by
  cases hsplit : halve l with
  | inl small => rfl
  | inr halves =>
    obtain ⟨a, b⟩ := halves
    obtain ⟨-, rfl, -⟩ := halve_eq_inr_iff.mp hsplit
    exact sortHalves_eq_self horder (hordered.sublist (List.sublist_append_left a b))
      (hordered.sublist (List.sublist_append_right a b))

/-- Merging undoes the split of a list in order. -/
theorem merge_halve (horder : TotalPreorder le) (hordered : Ordered le l) :
    merge le (halve l) = l := by
  calc merge le (halve l)
    _ = merge le (sortHalves le (halve l)) := by rw [sortHalves_halve horder hordered]
    _ = sort le l := merge_sortHalves_halve horder l
    _ = l := (sort_eq_self_iff horder).mpr hordered

/-- **A list is split in balance, and nothing is lost.** No list is too short to be split; what it
is split into reads as the list, and has the arms and sizes that the length decides. All that is in
balance comes of one list, and of no other. Sorting both halves keeps the arms and the sizes and
with them the balance, and sorting them again changes nothing. Merging gives back a list that is in
order. -/
theorem splits_in_balance :
    (∀ l : List α, halve? l = some (halve l) ∧ Halves.items (halve l) = l ∧
      (halve l = .inl (.inl ()) ↔ l = []) ∧ (∀ x, halve l = .inl (.inr x) ↔ l = [x]) ∧
      (l ≠ [] → (∀ x, l ≠ [x]) → ∃ a b, halve l = .inr (a, b) ∧ a ++ b = l ∧
        a.length = l.length / 2 ∧ b.length = l.length - a.length ∧ a ≠ [] ∧ b ≠ [] ∧
        a.length ≤ b.length ∧ b.length ≤ a.length + 1)) ∧
    (Function.Bijective fun l : List α =>
      (⟨halve l, balanced_halve l⟩ : { h : Halves α // h.Balanced })) ∧
    (∀ (le : α → α → Bool) (h : Halves α), Halves.sizes (sortHalves le h) = h.sizes ∧
      (h.Balanced → Halves.Balanced (sortHalves le h))) ∧
    ∀ le : α → α → Bool, TotalPreorder le →
      (∀ h, sortHalves le (sortHalves le h) = sortHalves le h) ∧
      ∀ l, Ordered le l → merge le (halve l) = l := by
  refine ⟨fun l => ⟨halve?_eq_some l, items_halve l, halve_eq_nothing_iff,
    fun x => halve_eq_single_iff, fun hany hmore => ?_⟩, ⟨?_, ?_⟩, fun le h => ?_,
    fun le horder => ?_⟩
  · have htwo : 2 ≤ l.length := by
      match l with
      | [] => exact absurd rfl hany
      | [x] => exact absurd rfl (hmore x)
      | _ :: _ :: _ => simp
    have hsplit := halve_of_two_le htwo
    obtain ⟨-, hparts, hhalf⟩ := halve_eq_inr_iff.mp hsplit
    have hbalanced := balanced_halve l
    rw [hsplit] at hbalanced
    exact ⟨_, _, hsplit, hparts, hhalf, by rw [hhalf, List.length_drop], hbalanced⟩
  · intro l m hsame
    have hread := congrArg Halves.items (Subtype.mk.inj hsame)
    rwa [items_halve, items_halve] at hread
  · exact fun h => ⟨h.val.items, Subtype.ext (halve_items h.property)⟩
  · exact ⟨sizes_sortHalves le h, fun hbalanced => hbalanced.sortHalves le⟩
  · exact ⟨sortHalves_sortHalves horder, fun l => merge_halve horder⟩

/-- Three items in order, two of which have the same first part. -/
theorem splits_in_balance_specimen :
    let l := [(1, 'b'), (1, 'a'), (2, 'c')]
    TotalPreorder byFirst ∧ Ordered byFirst l ∧
      (∃ a b, halve l = .inr (a, b) ∧ a.length = 1 ∧ b.length = 2) ∧
      merge byFirst (halve l) = l := by
  intro l
  have hordered : Ordered byFirst l := by decide
  obtain ⟨hsplits, -, -, hmerges⟩ := splits_in_balance (α := Nat × Char)
  refine ⟨byFirst_totalPreorder, hordered, ?_, (hmerges _ byFirst_totalPreorder).2 l hordered⟩
  obtain ⟨a, b, hsplit, -, hhalf, hrest, -⟩ := (hsplits l).2.2.2.2 (by decide) (by simp [l])
  have hthree : l.length = 3 := rfl
  rw [hthree] at hhalf hrest
  exact ⟨a, b, hsplit, hhalf, by rw [hrest, hhalf]⟩

end Relay

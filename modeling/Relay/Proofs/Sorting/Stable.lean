import Mathlib.Data.List.Sort
import Relay.Sorting

/-!
# Sorting by halves

A stable sort of a list has its items, in order, and equivalent ones as they stood
(`IsStableSort`). There is one such list (`IsStableSort.unique`), so that two ways of sorting are
compared by showing that both are stable.

* `isStableSort_sort`, `isStableSort_merge`: the sort is stable, and so is the merge of two lists in
  order;
* `sort_append`: a list is sorted by merging the sorted parts that it is put together from;
* `sort_eq_self_iff`, `sort_eq_sort_iff_perm`: which lists a sort leaves as they are, and which two
  it takes to the same one;
* `sorts_stably`: the sort is the one function that puts every list in order and keeps its classes;
* `sorts_by_halves`: splitting a list, sorting the halves and merging them is sorting the list.
-/

namespace Relay

variable {α : Type}

/-- A comparison that puts any two items in order. Items that are not the same may be equivalent. -/
structure TotalPreorder (le : α → α → Bool) : Prop where
  total : ∀ a b, (le a b || le b a) = true
  trans : ∀ a b c, le a b = true → le b c = true → le a c = true

/-- Whether either of two items may stand before the other. -/
def equivalent (le : α → α → Bool) (a b : α) : Bool :=
  le a b && le b a

/-- A list is in order if no item has to stand before one that it comes after. -/
def Ordered (le : α → α → Bool) (l : List α) : Prop :=
  l.Pairwise fun a b => le a b = true

instance (le : α → α → Bool) (l : List α) : Decidable (Ordered le l) :=
  inferInstanceAs (Decidable (l.Pairwise _))

/-- A stable sort of a list: its items in order, equivalent ones as they stood. -/
structure IsStableSort (le : α → α → Bool) (l sorted : List α) : Prop where
  perm : sorted.Perm l
  ordered : Ordered le sorted
  stable : ∀ e, sorted.filter (equivalent le e) = l.filter (equivalent le e)

variable {le : α → α → Bool}

namespace TotalPreorder

theorem refl (horder : TotalPreorder le) (a : α) : le a a = true := by
  simpa using horder.total a a

theorem equivalent_self (horder : TotalPreorder le) (a : α) : equivalent le a a = true := by
  simp [equivalent, horder.refl]

end TotalPreorder

/-! ## There is one stable sort -/

theorem mem_of_class {l m : List α} {x : α} (horder : TotalPreorder le) (hx : x ∈ l)
    (hsame : ∀ e, l.filter (equivalent le e) = m.filter (equivalent le e)) : x ∈ m := by
  have hfound : x ∈ l.filter (equivalent le x) :=
    List.mem_filter.mpr ⟨hx, horder.equivalent_self x⟩
  rw [hsame] at hfound
  exact (List.mem_filter.mp hfound).1

theorem Ordered.head_le {x y : α} {l : List α} (horder : TotalPreorder le)
    (hordered : Ordered le (x :: l)) (hy : y ∈ x :: l) : le x y = true := by
  rcases List.mem_cons.mp hy with rfl | hy
  · exact horder.refl y
  · exact List.rel_of_pairwise_cons hordered hy

/-- Two lists in order are the same if each class of equivalent items is the same in both. -/
theorem Ordered.eq_of_classes {l m : List α} (horder : TotalPreorder le) (hl : Ordered le l)
    (hm : Ordered le m)
    (hsame : ∀ e, l.filter (equivalent le e) = m.filter (equivalent le e)) : l = m := by
  induction l generalizing m with
  | nil =>
    cases m with
    | nil => rfl
    | cons y ys =>
      have hfound := mem_of_class horder List.mem_cons_self fun e => (hsame e).symm
      cases hfound
  | cons x xs ih =>
    cases m with
    | nil =>
      have hfound := mem_of_class horder List.mem_cons_self hsame
      cases hfound
    | cons y ys =>
      have hxy := hl.head_le horder (mem_of_class horder List.mem_cons_self fun e => (hsame e).symm)
      have hyx := hm.head_le horder (mem_of_class horder List.mem_cons_self hsame)
      have hboth : equivalent le x y = true := by simp [equivalent, hxy, hyx]
      have hheads := hsame x
      rw [List.filter_cons_of_pos (horder.equivalent_self x),
        List.filter_cons_of_pos hboth] at hheads
      obtain rfl := (List.cons.inj hheads).1
      rw [ih hl.of_cons hm.of_cons fun e => ?_]
      have hothers := hsame e
      rw [List.filter_cons, List.filter_cons] at hothers
      split at hothers
      · exact (List.cons.inj hothers).2
      · exact hothers

/-- A list has one stable sort. -/
theorem IsStableSort.unique {l r r' : List α} (horder : TotalPreorder le)
    (h : IsStableSort le l r) (h' : IsStableSort le l r') : r = r' :=
  h.ordered.eq_of_classes horder h'.ordered fun e => (h.stable e).trans (h'.stable e).symm

/-! ## What sorts stably -/

/-- Items that are equivalent to one are in order as they stand. -/
theorem ordered_class (horder : TotalPreorder le) (l : List α) (e : α) :
    Ordered le (l.filter (equivalent le e)) := by
  refine List.pairwise_of_forall_mem_list fun a ha b hb => ?_
  have hea := (List.mem_filter.mp ha).2
  have heb := (List.mem_filter.mp hb).2
  simp only [equivalent, Bool.and_eq_true] at hea heb
  exact horder.trans a e b hea.2 heb.1

/-- The sort is stable: what is in order already keeps its order, so each class does. -/
theorem isStableSort_sort (horder : TotalPreorder le) (l : List α) :
    IsStableSort le l (sort le l) := by
  have hperm : (sort le l).Perm l := List.mergeSort_perm l le
  refine ⟨hperm, List.pairwise_mergeSort horder.trans horder.total l, fun e => ?_⟩
  have hkept : (l.filter (equivalent le e)).Sublist (sort le l) :=
    List.sublist_mergeSort horder.trans horder.total (ordered_class horder l e) List.filter_sublist
  have hinClass := hkept.filter (equivalent le e)
  simp only [List.filter_filter, Bool.and_self] at hinClass
  exact (hinClass.eq_of_length (hperm.filter _).length_eq.symm).symm

/-- Of equivalent items a merge takes those of the left list first, if that is in order. -/
theorem filter_merge (horder : TotalPreorder le) {a : List α} (b : List α) (ha : Ordered le a)
    (e : α) : (a.merge b le).filter (equivalent le e) =
      a.filter (equivalent le e) ++ b.filter (equivalent le e) := by
  fun_induction List.merge a b le with
  | case1 b => rfl
  | case2 a => rw [List.filter_nil, List.append_nil]
  | case3 x xs y ys hfirst ih =>
    rw [List.filter_cons, List.filter_cons, ih ha.of_cons]
    split
    · rfl
    · rfl
  | case4 x xs y ys hfirst ih =>
    rw [List.filter_cons (x := y), List.filter_cons (x := y), ih ha]
    split
    next hinClass =>
      -- The right item goes first only before a left list of which nothing is in its class.
      have hnone : (x :: xs).filter (equivalent le e) = [] := by
        refine List.filter_eq_nil_iff.mpr fun z hz hfound => hfirst ?_
        simp only [equivalent, Bool.and_eq_true] at hinClass hfound
        have hzy := horder.trans z e y hfound.2 hinClass.1
        exact horder.trans x z y (ha.head_le horder hz) hzy
      rw [hnone]
      rfl
    next => rfl

/-- The merge of two lists in order is a stable sort of the one after the other. -/
theorem isStableSort_merge (horder : TotalPreorder le) {a b : List α} (ha : Ordered le a)
    (hb : Ordered le b) : IsStableSort le (a ++ b) (a.merge b le) := by
  refine ⟨List.merge_perm_append le, ?_, fun e => ?_⟩
  · exact List.pairwise_merge horder.trans horder.total a b ha hb
  · rw [filter_merge horder b ha, List.filter_append]

/-- A list is sorted by merging the sorted parts that it is put together from. -/
theorem sort_append (horder : TotalPreorder le) (a b : List α) :
    sort le (a ++ b) = (sort le a).merge (sort le b) le := by
  have ha := isStableSort_sort horder a
  have hb := isStableSort_sort horder b
  have hmerged := isStableSort_merge horder ha.ordered hb.ordered
  refine (isStableSort_sort horder (a ++ b)).unique horder ⟨?_, hmerged.ordered, fun e => ?_⟩
  · exact hmerged.perm.trans (ha.perm.append hb.perm)
  · rw [hmerged.stable, List.filter_append, List.filter_append, ha.stable, hb.stable]

/-! ## What the sort does -/

theorem sort_eq_iff (horder : TotalPreorder le) {l r : List α} :
    sort le l = r ↔ IsStableSort le l r := by
  refine ⟨?_, fun h => (isStableSort_sort horder l).unique horder h⟩
  rintro rfl
  exact isStableSort_sort horder l

/-- A list in order is its own stable sort. -/
theorem Ordered.isStableSort {l : List α} (h : Ordered le l) : IsStableSort le l l :=
  ⟨.refl l, h, fun _ => rfl⟩

theorem sort_eq_self_iff (horder : TotalPreorder le) {l : List α} :
    sort le l = l ↔ Ordered le l :=
  (sort_eq_iff horder).trans ⟨IsStableSort.ordered, Ordered.isStableSort⟩

/-- If no two items are equivalent but those that are the same, two lists are sorted into the same
one if they hold the same items. -/
theorem sort_eq_sort_iff_perm (horder : TotalPreorder le)
    (hantisymm : ∀ a b, le a b = true → le b a = true → a = b) {l m : List α} :
    sort le l = sort le m ↔ l.Perm m := by
  have hl := isStableSort_sort horder l
  have hm := isStableSort_sort horder m
  refine ⟨fun hsame => hl.perm.symm.trans (hsame ▸ hm.perm), fun hperm => ?_⟩
  have htogether : (sort le l).Perm (sort le m) := hl.perm.trans (hperm.trans hm.perm.symm)
  exact htogether.eq_of_pairwise (fun a b _ _ => hantisymm a b) hl.ordered hm.ordered

/-- **The sort is the stable sorting function**: it is the one way to put the items of a list in
order and to keep equivalent ones as they stand. So it leaves the lists in order as they are, and no
others, and sorting twice is sorting once. If equivalent items are the same, it takes two lists to
the same one just if they hold the same items. -/
theorem sorts_stably (horder : TotalPreorder le) :
    (∀ l : List α, (sort le l).Perm l ∧ Ordered le (sort le l) ∧
      ∀ e, (sort le l).filter (equivalent le e) = l.filter (equivalent le e)) ∧
    (∀ l r : List α, r.Perm l → Ordered le r →
      (∀ e, r.filter (equivalent le e) = l.filter (equivalent le e)) → r = sort le l) ∧
    (∀ l : List α, sort le (sort le l) = sort le l) ∧
    (∀ l : List α, sort le l = l ↔ Ordered le l) ∧
    ((∀ a b, le a b = true → le b a = true → a = b) →
      ∀ l m : List α, sort le l = sort le m ↔ l.Perm m) := by
  have hstable (l : List α) : IsStableSort le l (sort le l) := isStableSort_sort horder l
  refine ⟨fun l => ?_, fun l r hperm hordered hclasses => ?_, fun l => ?_, fun l => ?_, ?_⟩
  · exact ⟨(hstable l).perm, (hstable l).ordered, (hstable l).stable⟩
  · exact ((sort_eq_iff horder).mpr ⟨hperm, hordered, hclasses⟩).symm
  · exact (sort_eq_self_iff horder).mpr (hstable l).ordered
  · exact sort_eq_self_iff horder
  · exact fun hantisymm l m => sort_eq_sort_iff_perm horder hantisymm

/-- Pairs by their first parts alone. -/
def byFirst (a b : Nat × Char) : Bool :=
  decide (a.1 ≤ b.1)

theorem byFirst_totalPreorder : TotalPreorder byFirst where
  total a b := by simpa [byFirst] using Nat.le_total a.1 b.1
  trans a b c hab hbc := by
    simp only [byFirst, decide_eq_true_eq] at hab hbc ⊢
    exact Nat.le_trans hab hbc

theorem ble_totalPreorder : TotalPreorder Nat.ble where
  total a b := by simpa using Nat.le_total a b
  trans a b c hab hbc := Nat.ble_eq.mpr (Nat.le_trans (Nat.ble_eq.mp hab) (Nat.ble_eq.mp hbc))

/-- Equal first parts out of order, and the same numbers given twice. -/
theorem sorts_stably_specimen :
    let l := [(2, 'a'), (1, 'b'), (2, 'c')]
    let sorted := [(1, 'b'), (2, 'a'), (2, 'c')]
    (TotalPreorder byFirst ∧ sort byFirst l = sorted) ∧
      TotalPreorder Nat.ble ∧ sort Nat.ble [3, 1, 2] = sort Nat.ble [2, 3, 1] := by
  intro l sorted
  obtain ⟨-, hunique, -⟩ := sorts_stably byFirst_totalPreorder
  obtain ⟨-, -, -, -, hsame⟩ := sorts_stably ble_totalPreorder
  have hantisymm (a b : Nat) (hab : Nat.ble a b = true) (hba : Nat.ble b a = true) : a = b :=
    Nat.le_antisymm (Nat.ble_eq.mp hab) (Nat.ble_eq.mp hba)
  refine ⟨⟨byFirst_totalPreorder, ?_⟩, ble_totalPreorder, ?_⟩
  · refine (hunique l sorted (by decide) (by decide) fun e => ?_).symm
    match e with
    | (0, _) | (1, _) | (2, _) | (_ + 3, _) => simp [l, sorted, equivalent, byFirst]
  · exact (hsame hantisymm _ _).mpr (by decide)

/-! ## Sorting by halves -/

/-- Splitting a list, sorting the halves and merging them is sorting the list. -/
theorem merge_sortHalves_halve (horder : TotalPreorder le) (l : List α) :
    merge le (sortHalves le (halve l)) = sort le l := by
  match l with
  | [] => exact List.mergeSort_nil.symm
  | [x] => exact (List.mergeSort_singleton x).symm
  | x :: y :: l =>
    have hhalves : halve (x :: y :: l) = .inr ((x :: y :: l).splitAt ((x :: y :: l).length / 2)) :=
      rfl
    rw [hhalves, sortHalves, merge, mergeOnto_eq_append, List.nil_append, ← sort_append horder,
      List.splitAt_eq, List.take_append_drop]

/-- **Sorting by halves is sorting**: every list can be split, and sorting the halves and merging
them gives the stable sort of the list, item for item. -/
theorem sorts_by_halves (horder : TotalPreorder le) (l : List α) :
    (halve? l).map (fun halves => merge le (sortHalves le halves)) = some (sort le l) ∧
      IsStableSort le l (sort le l) := by
  refine ⟨?_, isStableSort_sort horder l⟩
  rw [halve?_eq_some, Option.map_some, merge_sortHalves_halve horder]

/-- Equal first parts, on both sides of the middle. -/
theorem sorts_by_halves_specimen :
    TotalPreorder byFirst ∧
    (halve? [(2, 'a'), (1, 'b'), (2, 'c'), (1, 'd'), (2, 'e')]).map
        (fun halves => merge byFirst (sortHalves byFirst halves)) =
      some [(1, 'b'), (1, 'd'), (2, 'a'), (2, 'c'), (2, 'e')] := by
  refine ⟨byFirst_totalPreorder, ?_⟩
  rw [(sorts_by_halves byFirst_totalPreorder _).1]
  simp [sort, byFirst, List.mergeSort, List.MergeSort.Internal.splitInTwo]

end Relay

import Mathlib.Data.List.Basic
import Relay.Directory

/-!
# Directories hold one object for each name

The names in a directory ascend (`Directory.Ascending`), so each name is there at most once. What
this comes to for the objects, up to their order:

* `Ascending.perm_erase`: the object of a name, if there is one, and what is left without it;
* `Ascending.perm_put`: the object that is put in, and the one whose place it takes.
-/

namespace Relay.Directory

variable {α : Type} {d : Directory α} {key : String} {a : α}

/-- The names ascend. -/
def Ascending (d : Directory α) : Prop :=
  d.Pairwise fun x y => x.1 < y.1

theorem ne_of_gt {name other : String} (h : name < other) : other ≠ name := by
  rintro rfl
  exact String.lt_irrefl other h

theorem ascending_nil : Ascending ([] : Directory α) :=
  List.Pairwise.nil

theorem Ascending.erase (h : Ascending d) (key : String) : Ascending (d.erase key) :=
  h.filter _

/-- Nothing is erased where a name is absent. -/
theorem erase_eq_self (h : ∀ entry ∈ d, entry.1 ≠ key) : d.erase key = d :=
  List.filter_eq_self.mpr fun entry hentry => decide_eq_true (h entry hentry)

theorem erase_cons_self (key : String) (a : α) (d : Directory α) :
    erase ((key, a) :: d) key = d.erase key := by
  simp [erase]

theorem erase_cons_of_ne {name : String} (h : name ≠ key) (a : α) (d : Directory α) :
    erase ((name, a) :: d) key = (name, a) :: d.erase key := by
  simp [erase, h]

/-- The object of a name and the objects that are left without it are all objects. -/
theorem Ascending.perm_erase (h : Ascending d) (key : String) :
    d.objects.Perm ((d.find? key).toList ++ (d.erase key).objects) := by
  induction d with
  | nil => exact List.Perm.refl _
  | cons entry d ih =>
    obtain ⟨name, b⟩ := entry
    obtain ⟨hfirst, hrest⟩ := List.pairwise_cons.mp h
    rw [find?]
    split
    next hname =>
      subst hname
      rw [erase_cons_self, erase_eq_self fun entry hentry => ne_of_gt (hfirst entry hentry)]
      exact List.Perm.refl _
    next hname =>
      rw [erase_cons_of_ne hname]
      exact ((ih hrest).cons b).trans List.perm_middle.symm

theorem mem_of_find? (hfind : d.find? key = some a) : a ∈ d.objects := by
  induction d with
  | nil => cases hfind
  | cons entry d ih =>
    obtain ⟨name, b⟩ := entry
    rw [find?] at hfind
    split at hfind
    next => cases hfind; exact List.mem_cons_self
    next => exact List.mem_cons_of_mem _ (ih hfind)

theorem find?_put_self (d : Directory α) (key : String) (a : α) :
    (d.put key a).find? key = some a := by
  induction d with
  | nil => exact if_pos rfl
  | cons entry d ih =>
    obtain ⟨name, b⟩ := entry
    rw [put]
    split
    next => exact if_pos rfl
    next hname =>
      split
      next => exact if_pos rfl
      next => exact (if_neg hname).trans ih

theorem find?_erase_self (d : Directory α) (key : String) : (d.erase key).find? key = none := by
  induction d with
  | nil => rfl
  | cons entry d ih =>
    obtain ⟨name, b⟩ := entry
    by_cases hname : name = key
    · subst hname
      rw [erase_cons_self, ih]
    · rw [erase_cons_of_ne hname]
      exact (if_neg hname).trans ih

theorem mem_put {entry : String × α} (h : entry ∈ d.put key a) : entry = (key, a) ∨ entry ∈ d := by
  induction d with
  | nil => exact .inl (List.mem_singleton.mp h)
  | cons first d ih =>
    obtain ⟨name, b⟩ := first
    rw [put] at h
    split at h
    next => exact (List.mem_cons.mp h).imp_right (List.mem_cons_of_mem _)
    next =>
      split at h
      next => exact List.mem_cons.mp h
      next =>
        rcases List.mem_cons.mp h with rfl | h
        · exact .inr List.mem_cons_self
        · exact (ih h).imp_right (List.mem_cons_of_mem _)

theorem mem_objects_of_erase (h : a ∈ (d.erase key).objects) : a ∈ d.objects := by
  obtain ⟨entry, hentry, rfl⟩ := List.mem_map.mp h
  exact List.mem_map_of_mem (List.mem_of_mem_filter hentry)

theorem mem_objects_put {b : α} (h : b ∈ (d.put key a).objects) : b = a ∨ b ∈ d.objects := by
  obtain ⟨entry, hentry, rfl⟩ := List.mem_map.mp h
  exact (mem_put hentry).imp (congrArg Prod.snd) List.mem_map_of_mem

theorem Ascending.put (h : Ascending d) (key : String) (a : α) : Ascending (d.put key a) := by
  induction d with
  | nil => exact List.pairwise_singleton _ _
  | cons first d ih =>
    obtain ⟨name, b⟩ := first
    obtain ⟨hbefore, hrest⟩ := List.pairwise_cons.mp h
    rw [Directory.put]
    split
    next hname => subst hname; exact List.pairwise_cons.mpr ⟨hbefore, hrest⟩
    next hname =>
      split
      next hkey =>
        refine List.pairwise_cons.mpr ⟨List.forall_mem_cons.mpr ⟨hkey, fun entry hentry => ?_⟩, h⟩
        exact String.lt_trans hkey (hbefore entry hentry)
      next hkey =>
        have hlt : name < key := by
          by_contra hge
          exact hname (String.le_antisymm (String.not_lt.mp hkey) (String.not_lt.mp hge))
        refine List.pairwise_cons.mpr ⟨fun entry hentry => ?_, ih hrest⟩
        rcases mem_put hentry with rfl | hentry
        · exact hlt
        · exact hbefore entry hentry

theorem Ascending.perm_put_erase (h : Ascending d) (key : String) (a : α) :
    (d.put key a).objects.Perm (a :: (d.erase key).objects) := by
  induction d with
  | nil => exact List.Perm.refl _
  | cons first d ih =>
    obtain ⟨name, b⟩ := first
    obtain ⟨hbefore, hrest⟩ := List.pairwise_cons.mp h
    rw [Directory.put]
    split
    next hname =>
      subst hname
      rw [erase_cons_self, erase_eq_self fun entry hentry => ne_of_gt (hbefore entry hentry)]
      exact List.Perm.refl _
    next hname =>
      split
      next hkey =>
        have habsent : ∀ entry ∈ (name, b) :: d, entry.1 ≠ key :=
          List.forall_mem_cons.mpr ⟨hname, fun entry hentry =>
            ne_of_gt (String.lt_trans hkey (hbefore entry hentry))⟩
        rw [erase_eq_self habsent]
        exact List.Perm.refl _
      next hkey =>
        rw [erase_cons_of_ne hname]
        exact ((ih hrest).cons b).trans (List.Perm.swap a b _)

/-- An object that is put in takes the place of the one that had its name. -/
theorem Ascending.perm_put (h : Ascending d) (key : String) (a : α) :
    (a :: d.objects).Perm ((d.find? key).toList ++ (d.put key a).objects) := by
  have htaken := (h.perm_erase key).cons a
  have hput := ((h.perm_put_erase key a).append_left (d.find? key).toList).symm
  exact htaken.trans (List.perm_middle.symm.trans hput)

end Relay.Directory

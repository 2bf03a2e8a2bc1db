import Mathlib.Algebra.GroupWithZero.Nat
import Relay.Proofs.Directory
import Relay.Proofs.Tally
import Relay.Session.Action

/-!
# What a session holds

All records and crews of a session that works on one ledger agree with the history of what it
logged (`Session.Kept`). In the middle of an action some records are in hand, which the session
held before or will hold after it, and some threads are waited for whose crew is in hand.

The lemmas here say how the pieces of which the actions are made keep the tally: moving records
between the directories and the hand (`Kept.set_wholes`, `Kept.set_records`, `Kept.set_sets`),
crews likewise (`Kept.set_crews`), and dropping what is in hand (`Kept.dropFiled`, `Kept.dropSet`,
`Kept.dropCrew`).
-/

namespace Relay.Session

/-- The records that a session holds. -/
def held (s : Session) : List (Filed String) :=
  s.wholes.objects.map Whole.filed ++ s.records.objects ++ s.sets.objects.flatten

/-- How many threads crews are still to join. -/
def handleCount (crews : Directory Crew) : Nat :=
  (crews.objects.map fun crew => crew.handles.length).sum

/-- The session agrees with the history of the ledger named `key`, which it has gone on from `past`,
while it has the records `hand` in hand and `loose` threads are waited for besides. -/
structure Kept (key : String) (past : List Event) (hand : List (Filed String)) (loose : Nat)
    (s : Session) : Prop where
  tally : Tally (past ++ s.log) ((hand ++ s.held).map Filed.record) (loose + handleCount s.crews)
    (s.books.ledger key)
  filed : ∀ f ∈ hand ++ s.held, f.key = key
  hired : ∀ crew ∈ s.crews.objects, crew.ledger = key
  wholes : s.wholes.Ascending
  records : s.records.Ascending
  sets : s.sets.Ascending
  crews : s.crews.Ascending

namespace Kept

variable {key name : String} {past : List Event} {hand ins outs : List (Filed String)} {n n' : Nat}
  {s : Session}

/-- Channels and threads have no part in it. -/
theorem frame (h : s.Kept key past hand n) (channels : Array (Channel Payload))
    (tasks : Array Task) (senders receivers : Directory Nat) :
    ({ s with channels, tasks, senders, receivers } : Session).Kept key past hand n :=
  ⟨h.tally, h.filed, h.hired, h.wholes, h.records, h.sets, h.crews⟩

theorem perm (h : s.Kept key past ins n) (hperm : ins.Perm outs) : s.Kept key past outs n :=
  { h with
    tally := h.tally.perm ((hperm.append_right _).map _)
    filed := fun f hf => h.filed f ((hperm.append_right _).mem_iff.mpr hf) }

/-- The records in hand are those of the ledger. -/
theorem keyed (h : s.Kept key past (ins ++ hand) n) : ∀ f ∈ ins, f.key = key := fun f hf =>
  h.filed f (List.mem_append_left _ (List.mem_append_left _ hf))

/-- What is counted on the ledger is logged. -/
theorem book {events : List Event} {l : Ledger} (h : s.Kept key past ins n)
    (htally : Tally (past ++ s.log ++ events) ((outs ++ s.held).map Filed.record)
      (n' + handleCount s.crews) l)
    (hfiled : ∀ f ∈ outs ++ s.held, f.key = key) :
    (({ s with books := s.books.update key l } : Session).note events).Kept key past outs n' := by
  refine { h with tally := ?_, filed := hfiled }
  show Tally (past ++ (s.log ++ events)) _ _ ((s.books.update key l).ledger key)
  rwa [← List.append_assoc, Books.ledger_update_self]

/-! ## Moving records and crews -/

/-- Records move between the session and the hand. -/
theorem move {s' : Session} (h : s.Kept key past (ins ++ hand) n)
    (hperm : (ins ++ s.held).Perm (outs ++ s'.held)) (hlog : s'.log = s.log)
    (hbooks : s'.books = s.books) (hcrews : s'.crews = s.crews) (hwholes : s'.wholes.Ascending)
    (hrecords : s'.records.Ascending) (hsets : s'.sets.Ascending) :
    s'.Kept key past (outs ++ hand) n := by
  have hmoved : (ins ++ hand ++ s.held).Perm (outs ++ hand ++ s'.held) := by
    refine List.perm_iff_count.mpr fun f => ?_
    have hcount := hperm.count_eq f
    simp only [List.count_append] at hcount ⊢
    omega
  refine ⟨?_, fun f hf => h.filed f (hmoved.mem_iff.mpr hf), ?_, hwholes, hrecords, hsets, ?_⟩
  · rw [hlog, hbooks, hcrews]
    exact h.tally.perm (hmoved.map _)
  · rw [hcrews]
    exact h.hired
  · rw [hcrews]
    exact h.crews

theorem set_wholes {d : Directory Whole} (ins outs : List (Filed String))
    (h : s.Kept key past (ins ++ hand) n)
    (hperm : (ins ++ s.wholes.objects.map Whole.filed).Perm (outs ++ d.objects.map Whole.filed))
    (hd : d.Ascending) : ({ s with wholes := d } : Session).Kept key past (outs ++ hand) n := by
  refine h.move ?_ rfl rfl rfl hd h.records h.sets
  simp only [held, ← List.append_assoc]
  exact (hperm.append_right _).append_right _

theorem set_records {d : Directory (Filed String)} (ins outs : List (Filed String))
    (h : s.Kept key past (ins ++ hand) n)
    (hperm : (ins ++ s.records.objects).Perm (outs ++ d.objects)) (hd : d.Ascending) :
    ({ s with records := d } : Session).Kept key past (outs ++ hand) n := by
  refine h.move (List.perm_iff_count.mpr fun f => ?_) rfl rfl rfl h.wholes hd h.sets
  have hcount := hperm.count_eq f
  simp only [held, List.count_append] at hcount ⊢
  omega

theorem set_sets {d : Directory (List (Filed String))} (ins outs : List (Filed String))
    (h : s.Kept key past (ins ++ hand) n)
    (hperm : (ins ++ s.sets.objects.flatten).Perm (outs ++ d.objects.flatten)) (hd : d.Ascending) :
    ({ s with sets := d } : Session).Kept key past (outs ++ hand) n := by
  refine h.move (List.perm_iff_count.mpr fun f => ?_) rfl rfl rfl h.wholes h.records hd
  have hcount := hperm.count_eq f
  simp only [held, List.count_append] at hcount ⊢
  omega

theorem set_crews {d : Directory Crew} (h : s.Kept key past hand n)
    (hsum : n + handleCount s.crews = n' + handleCount d)
    (hhired : ∀ crew ∈ d.objects, crew.ledger = key) (hd : d.Ascending) :
    ({ s with crews := d } : Session).Kept key past hand n' :=
  { h with
    tally := hsum ▸ h.tally
    hired := hhired
    crews := hd }

/-! ### Channels -/

theorem take_whole {w : Whole} (h : s.Kept key past hand n) (hfind : s.wholes.find? name = some w) :
    ({ s with wholes := s.wholes.erase name } : Session).Kept key past (w.filed :: hand) n := by
  have hperm := (h.wholes.perm_erase name).map Whole.filed
  rw [hfind] at hperm
  exact set_wholes [] [w.filed] h hperm (h.wholes.erase name)

theorem put_whole {w : Whole} (h : s.Kept key past (w.filed :: hand) n) (name : String) :
    ({ s with wholes := s.wholes.put name w } : Session).Kept key past
      ((s.wholes.find? name).toList.map Whole.filed ++ hand) n := by
  have hperm := (h.wholes.perm_put name w).map Whole.filed
  rw [List.map_append] at hperm
  exact set_wholes [w.filed] _ h hperm (h.wholes.put name w)

/-! ### Records -/

theorem take_record {f : Filed String} (h : s.Kept key past hand n)
    (hfind : s.records.find? name = some f) :
    ({ s with records := s.records.erase name } : Session).Kept key past (f :: hand) n := by
  have hperm := h.records.perm_erase name
  rw [hfind] at hperm
  exact set_records [] [f] h hperm (h.records.erase name)

theorem put_record {f : Filed String} (h : s.Kept key past (f :: hand) n) (name : String) :
    ({ s with records := s.records.put name f } : Session).Kept key past
      ((s.records.find? name).toList ++ hand) n :=
  set_records [f] _ h (h.records.perm_put name f) (h.records.put name f)

/-- A record is put back where it was taken. -/
theorem restore_record {f : Filed String} {d : Directory (Filed String)}
    (h : s.Kept key past (f :: hand) n) (hd : d.Ascending) (herase : s.records = d.erase name) :
    ({ s with records := d.put name f } : Session).Kept key past hand n := by
  refine set_records [f] [] h ?_ (hd.put name f)
  rw [herase]
  exact (hd.perm_put_erase name f).symm

/-! ### Sets -/

theorem take_set {fs : List (Filed String)} (h : s.Kept key past hand n)
    (hfind : s.sets.find? name = some fs) :
    ({ s with sets := s.sets.erase name } : Session).Kept key past (fs ++ hand) n := by
  have hperm := (h.sets.perm_erase name).flatten
  rw [hfind] at hperm
  exact set_sets [] fs h hperm (h.sets.erase name)

/-- A set is put back where it was taken. -/
theorem restore_set {fs : List (Filed String)} {d : Directory (List (Filed String))}
    (h : s.Kept key past (fs ++ hand) n) (hd : d.Ascending) (herase : s.sets = d.erase name) :
    ({ s with sets := d.put name fs } : Session).Kept key past hand n := by
  refine set_sets fs [] h ?_ (hd.put name fs)
  rw [herase]
  exact (hd.perm_put_erase name fs).flatten.symm

/-- Records are added to a set, which may be new. -/
theorem extend_set (ins : List (Filed String)) (h : s.Kept key past (ins ++ hand) n)
    (name : String) :
    ({ s with sets := s.sets.put name ((s.sets.find? name).getD [] ++ ins) } : Session).Kept key
      past hand n := by
  refine set_sets ins [] h ?_ (h.sets.put name _)
  have hperm := (h.sets.perm_erase name).flatten
  have hperm' := (h.sets.perm_put_erase name ((s.sets.find? name).getD [] ++ ins)).flatten
  refine List.perm_iff_count.mpr fun f => ?_
  have hbefore := hperm.count_eq f
  have hafter := hperm'.count_eq f
  cases hfind : s.sets.find? name <;>
    simp [hfind, List.count_append] at hbefore hafter ⊢ <;> omega

/-! ### Crews -/

theorem handleCount_find {d : Directory Crew} (hd : d.Ascending) (name : String) :
    handleCount d = ((d.find? name).elim 0 fun crew => crew.handles.length) +
      handleCount (d.erase name) := by
  have hsum := ((hd.perm_erase name).map fun crew : Crew => crew.handles.length).sum_nat
  cases hfind : d.find? name <;> simpa [handleCount, hfind] using hsum

theorem handleCount_put {d : Directory Crew} (hd : d.Ascending) (name : String) (crew : Crew) :
    handleCount (d.put name crew) = crew.handles.length + handleCount (d.erase name) := by
  have hsum := ((hd.perm_put_erase name crew).map fun crew : Crew => crew.handles.length).sum_nat
  simpa [handleCount] using hsum

/-- A crew takes the place of another. -/
theorem put_crew (h : s.Kept key past hand n) (name : String) (crew : Crew)
    (hkey : crew.ledger = key)
    (hsum : n + ((s.crews.find? name).elim 0 fun old => old.handles.length) =
      n' + crew.handles.length) :
    ({ s with crews := s.crews.put name crew } : Session).Kept key past hand n' := by
  refine h.set_crews ?_ (fun c hc => ?_) (h.crews.put name crew)
  · rw [handleCount_find h.crews name, handleCount_put h.crews]
    omega
  · rcases List.mem_cons.mp ((h.crews.perm_put_erase name crew).mem_iff.mp hc) with rfl | hc
    · exact hkey
    · exact h.hired c ((h.crews.perm_erase name).mem_iff.mpr (List.mem_append_right _ hc))

theorem take_crew {crew : Crew} (h : s.Kept key past hand n)
    (hfind : s.crews.find? name = some crew) :
    ({ s with crews := s.crews.erase name } : Session).Kept key past hand
      (n + crew.handles.length) := by
  refine h.set_crews ?_ (fun c hc => ?_) (h.crews.erase name)
  · rw [handleCount_find h.crews name, hfind]
    exact (Nat.add_assoc ..).symm
  · exact h.hired c ((h.crews.perm_erase name).mem_iff.mpr (List.mem_append_right _ hc))

/-! ## Dropping -/

/-- A record in hand is dropped. -/
theorem dropFiled {f : Filed String} (h : s.Kept key past (f :: hand) n) :
    (s.dropFiled f).Kept key past hand n := by
  obtain ⟨hf, hrest⟩ := List.forall_mem_cons.mp h.filed
  have htally := h.tally
  subst hf
  have hdropped := htally.filed_drop
  rw [List.append_assoc] at hdropped
  exact { h with tally := hdropped, filed := hrest }

theorem dropWhole {w : Whole} (h : s.Kept key past (w.filed :: hand) n) :
    (s.dropWhole w).Kept key past hand n :=
  ((h.frame _ _ _ _).frame _ _ _ _).dropFiled

/-- A record in hand is disposed. -/
theorem disposeFiled {f f' : Filed String} {books : Books String}
    (h : s.Kept key past (f :: hand) n) (hdispose : f.dispose s.books = .ok (f', books)) :
    f' = f.marked ∧
      (({ s with books } : Session).note [.disposed f.record.id]).Kept key past (f' :: hand) n := by
  obtain ⟨hf, hrest⟩ := List.forall_mem_cons.mp h.filed
  have htally := h.tally
  subst hf
  rw [htally.filed_dispose] at hdispose
  split at hdispose
  next => cases hdispose
  next hd =>
    split at hdispose
    next => cases hdispose
    next hn =>
      cases hdispose
      have hdisposed := htally.dispose (Bool.not_eq_true _ ▸ hd)
      exact ⟨rfl, h.book hdisposed (List.forall_mem_cons.mpr ⟨rfl, hrest⟩)⟩

/-- A record in hand that was disposed is dropped. -/
theorem forget {f : Filed String} (h : s.Kept key past (f :: hand) n)
    (hd : f.record.disposed = true) : s.Kept key past hand n :=
  { h with tally := h.tally.forget hd, filed := (List.forall_mem_cons.mp h.filed).2 }

/-- The records of a set in hand are dropped. -/
theorem dropSet {fs : List (Filed String)} (h : s.Kept key past (fs ++ hand) n) :
    (s.dropSet fs).Kept key past hand n := by
  have htally := h.tally
  rw [List.append_assoc, List.map_append] at htally
  have hdropped := htally.dropAll h.keyed
  rw [List.append_assoc] at hdropped
  refine { h with tally := hdropped, filed := fun f hf => h.filed f ?_ }
  rw [List.append_assoc]
  exact List.mem_append_right _ hf

/-- The records of a set in hand are disposed, up to the first that cannot be. -/
theorem disposeAll {fs : List (Filed String)} (h : s.Kept key past (fs ++ hand) n) :
    (({ s with books := (disposeAll s.books fs).books } : Session).note
      (disposeAll s.books fs).events).Kept key past
        ((disposeAll s.books fs).records ++ hand) n := by
  have htally := h.tally
  rw [List.append_assoc, List.map_append] at htally
  have hdisposed := htally.disposeAll h.keyed
  rw [List.append_assoc] at hdisposed
  refine { h with tally := ?_, filed := fun f hf => ?_ }
  · rw [List.append_assoc, List.map_append]
    exact hdisposed
  · rw [List.append_assoc] at hf
    rcases List.mem_append.mp hf with hf | hf
    · have hmem := List.mem_map_of_mem (f := Filed.key) hf
      rw [Tally.disposeAll_keys] at hmem
      obtain ⟨g, hg, hgf⟩ := List.mem_map.mp hmem
      rw [← hgf]
      exact h.keyed g hg
    · refine h.filed f ?_
      rw [List.append_assoc]
      exact List.mem_append_right _ hf

/-- A crew in hand is dropped. -/
theorem dropCrew {crew : Crew} (h : s.Kept key past hand (n + crew.handles.length))
    (hkey : crew.ledger = key) : (s.dropCrew crew).Kept key past hand n := by
  subst hkey
  have htally := h.tally
  rw [Nat.add_right_comm] at htally
  exact h.book (htally.dropCrew s.panicked) h.filed

/-- The threads of a crew are joined. -/
theorem joinAll {crew : List Handle} (h : s.Kept key past hand (n + crew.length))
    (panicked : Nat → Bool) :
    (({ s with books := s.books.update key (joinAll panicked crew (s.books.ledger key)).2.1 } :
      Session).note (joinAll panicked crew (s.books.ledger key)).2.2).Kept key past hand n := by
  have htally := h.tally
  rw [Nat.add_right_comm] at htally
  exact h.book (htally.joinAll panicked) h.filed

/-- A thread is started, and it is still in hand. -/
theorem started (h : s.Kept key past hand n) (stage : String) :
    (({ s with books := s.books.update key ((s.books.ledger key).bump .threadsSpawned) } :
      Session).note [.spawned stage]).Kept key past hand (n + 1) := by
  have hspawned := h.tally.spawn stage
  rw [Nat.add_right_comm] at hspawned
  exact h.book hspawned h.filed

end Kept

end Relay.Session

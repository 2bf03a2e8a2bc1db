import Mathlib.Data.List.Perm.Basic
import Relay.Proofs.Tally

/-!
# Sets of records from several ledgers

A set is disposed in order, each record on its own ledger, up to the first that is not disposed yet
and whose ledger has live threads:

* `disposeAll_append`: the records before that one are disposed, unless they were before;
* `disposesPrefix`: so what the call leaves is told from the records and the ledgers as they were;
* `Archive.counted_play`: through any history of a set and of records that are held one by one, a
  ledger has counted as many disposals as it has records that were marked since;
* `Archive.disposes_in_order`: all of this, and that a set is finished by one call while no thread
  is live.
-/

namespace Relay

variable {κ : Type} [DecidableEq κ] {b : Books κ} {f : Filed κ} {fs before after : List (Filed κ)}
  {key : κ}

theorem Books.ledger_update (b : Books κ) (key other : κ) (l : Ledger) :
    (b.update key l).ledger other = if key = other then l else b.ledger other := by
  split
  · rename_i h
    rw [← h, ledger_update_self]
  · rename_i h
    exact ledger_update_of_ne b l (Ne.symm h)

/-! ## One record -/

namespace Filed

theorem dispose_of_disposed (hd : f.record.disposed = true) :
    f.dispose b = .error (.doubleDispose f.record.id) := by
  rw [dispose, Record.dispose, if_pos hd]

theorem dispose_of_live (hd : f.record.disposed = false)
    (hlive : 0 < (b.ledger f.key).liveThreads) :
    f.dispose b = .error (.disposeWhileInUse f.record.id (b.ledger f.key).liveThreads) := by
  rw [dispose, Record.dispose_of_live hd (Nat.ne_of_gt hlive)]

/-- The books after a record was counted as disposed. -/
def settle (f : Filed κ) (b : Books κ) : Books κ :=
  b.update f.key ((b.ledger f.key).bump .channelsDisposed)

theorem dispose_of_quiet (hd : f.record.disposed = false)
    (hquiet : (b.ledger f.key).liveThreads = 0) : f.dispose b = .ok (f.marked, f.settle b) := by
  rw [dispose, Record.dispose_of_quiet hd hquiet]
  rfl

theorem of_dispose_ok {f' : Filed κ} {b' : Books κ} (h : f.dispose b = .ok (f', b')) :
    f.record.disposed = false ∧ f' = f.marked ∧ b' = f.settle b := by
  cases hd : f.record.disposed with
  | true =>
    rw [dispose_of_disposed hd] at h
    cases h
  | false =>
    by_cases hquiet : (b.ledger f.key).liveThreads = 0
    · rw [dispose_of_quiet hd hquiet] at h
      cases h
      exact ⟨rfl, rfl, rfl⟩
    · rw [dispose_of_live hd (Nat.pos_of_ne_zero hquiet)] at h
      cases h

omit [DecidableEq κ] in
theorem marked_of_disposed (hd : f.record.disposed = true) : f.marked = f := by
  rw [marked, ← hd]

omit [DecidableEq κ] in
@[simp] theorem marked_marked (f : Filed κ) : f.marked.marked = f.marked := rfl

/-- Whether a record belongs to a ledger and is not disposed. -/
def isOpen (key : κ) (f : Filed κ) : Bool := f.key = key && !f.record.disposed

/-- Whether a record belongs to a ledger and is disposed. -/
def isClosed (key : κ) (f : Filed κ) : Bool := f.key = key && f.record.disposed

/-- Whether nothing keeps a record from being disposed that was not disposed before. -/
def Free (b : Books κ) (f : Filed κ) : Prop :=
  f.record.disposed = false → (b.ledger f.key).liveThreads = 0

end Filed

/-! ## A set of records -/

/-- The ledger after so many more disposals. -/
def Ledger.disposing (l : Ledger) (n : Nat) : Ledger :=
  { l with channelsDisposed := l.channelsDisposed + n }

/-- The books after the records of a list were disposed that were not before. -/
def Books.settle (b : Books κ) : List (Filed κ) → Books κ
  | [] => b
  | f :: fs => if f.record.disposed then b.settle fs else (f.settle b).settle fs

theorem Filed.ledger_settle (f : Filed κ) (b : Books κ) (key : κ) :
    (f.settle b).ledger key = (b.ledger key).disposing (if f.key = key then 1 else 0) := by
  rw [settle, Books.ledger_update]
  split
  · rename_i h
    rw [h]
    rfl
  · rfl

/-- **Each ledger counts its own records**, and nothing else changes. -/
theorem Books.ledger_settle (b : Books κ) (fs : List (Filed κ)) (key : κ) :
    (b.settle fs).ledger key = (b.ledger key).disposing (fs.countP (Filed.isOpen key)) := by
  induction fs generalizing b with
  | nil => rfl
  | cons f fs ih =>
    rw [settle, List.countP_cons]
    split
    · rename_i hd
      rw [ih, Filed.isOpen, hd]
      simp
    · rename_i hd
      rw [ih, Filed.ledger_settle, Filed.isOpen]
      simp only [Ledger.disposing, Bool.not_eq_true] at hd ⊢
      simp only [hd, Bool.not_false, Bool.and_true, decide_eq_true_eq]
      rw [Nat.add_assoc, Nat.add_comm (ite ..)]

theorem Books.settle_of_disposed (hd : ∀ f ∈ fs, f.record.disposed = true) : b.settle fs = b := by
  induction fs with
  | nil => rfl
  | cons f fs ih =>
    obtain ⟨hf, hrest⟩ := List.forall_mem_cons.mp hd
    rw [settle, if_pos hf, ih hrest]

omit [DecidableEq κ] in
theorem map_marked_of_disposed (hd : ∀ f ∈ fs, f.record.disposed = true) :
    fs.map Filed.marked = fs :=
  (List.map_congr_left fun f hf => Filed.marked_of_disposed (hd f hf)).trans (List.map_id _)

omit [DecidableEq κ] in
theorem pending_of_disposed (hd : ∀ f ∈ fs, f.record.disposed = true) :
    pending (fs.map Filed.record) = [] := by
  rw [pending, List.map_eq_nil_iff, List.filter_eq_nil_iff, List.forall_mem_map]
  exact fun f hf => by rw [hd f hf]; exact Bool.false_ne_true

theorem Books.liveThreads_settle (b : Books κ) (fs : List (Filed κ)) (key : κ) :
    ((b.settle fs).ledger key).liveThreads = (b.ledger key).liveThreads := by
  rw [ledger_settle]
  rfl

theorem disposeAll_of_disposed (hd : f.record.disposed = true) (b : Books κ) :
    disposeAll b (f :: fs) =
      { disposeAll b fs with records := f :: (disposeAll b fs).records } := by
  rw [disposeAll, if_pos hd]

theorem disposeAll_of_stuck (hd : f.record.disposed = false)
    (hlive : 0 < (b.ledger f.key).liveThreads) : disposeAll b (f :: fs) =
      ⟨b, f :: fs, [], some (.disposeWhileInUse f.record.id (b.ledger f.key).liveThreads)⟩ := by
  rw [disposeAll, if_neg (Bool.eq_false_iff.mp hd), Filed.dispose_of_live hd hlive]

theorem disposeAll_of_free (hd : f.record.disposed = false)
    (hquiet : (b.ledger f.key).liveThreads = 0) : disposeAll b (f :: fs) =
      { disposeAll (f.settle b) fs with
        records := f.marked :: (disposeAll (f.settle b) fs).records
        events := .disposed f.record.id :: (disposeAll (f.settle b) fs).events } := by
  rw [disposeAll, if_neg (Bool.eq_false_iff.mp hd), Filed.dispose_of_quiet hd hquiet]
  rfl

/-- **Records that are not held up are disposed, and then it goes on** with those after them. -/
theorem disposeAll_append (hfree : ∀ f ∈ before, f.Free b) :
    disposeAll b (before ++ after) =
      { disposeAll (b.settle before) after with
        records := before.map Filed.marked ++ (disposeAll (b.settle before) after).records
        events := (pending (before.map Filed.record)).map .disposed ++
          (disposeAll (b.settle before) after).events } := by
  induction before generalizing b with
  | nil => rfl
  | cons f before ih =>
    obtain ⟨hf, hrest⟩ := List.forall_mem_cons.mp hfree
    cases hd : f.record.disposed with
    | true =>
      rw [List.cons_append, disposeAll_of_disposed hd, ih hrest, Books.settle, if_pos hd,
        List.map_cons, List.map_cons, Tally.pending_cons_of_disposed hd, f.marked_of_disposed hd]
      rfl
    | false =>
      -- Disposing a record leaves the threads of every ledger as they are.
      have hrest' : ∀ g ∈ before, g.Free (f.settle b) := fun g hg hfresh => by
        rw [Filed.ledger_settle]
        exact hrest g hg hfresh
      rw [List.cons_append, disposeAll_of_free hd (hf hd), ih hrest', Books.settle,
        if_neg (Bool.eq_false_iff.mp hd), List.map_cons, List.map_cons, Tally.pending_cons hd]
      rfl

/-- What disposing a set comes to, as the records and their ledgers tell beforehand. -/
structure DisposesPrefix (b : Books κ) (fs : List (Filed κ)) : Prop where
  /-- All records are disposed if none is held up. -/
  whole : (∀ f ∈ fs, f.Free b) → (disposeAll b fs).fault = none ∧
    (disposeAll b fs).records = fs.map Filed.marked ∧
    (disposeAll b fs).events = (pending (fs.map Filed.record)).map .disposed ∧
    ∀ key, (disposeAll b fs).books.ledger key =
      (b.ledger key).disposing (fs.countP (Filed.isOpen key))
  /-- Otherwise those before the first that is held up are disposed, and no others. -/
  halted : ∀ before f after, fs = before ++ f :: after → (∀ g ∈ before, g.Free b) →
    f.record.disposed = false → 0 < (b.ledger f.key).liveThreads →
    (disposeAll b fs).fault =
        some (.disposeWhileInUse f.record.id (b.ledger f.key).liveThreads) ∧
      (disposeAll b fs).records = before.map Filed.marked ++ f :: after ∧
      (disposeAll b fs).events = (pending (before.map Filed.record)).map .disposed ∧
      ∀ key, (disposeAll b fs).books.ledger key =
        (b.ledger key).disposing (before.countP (Filed.isOpen key))
  /-- No record of a set is disposed twice. -/
  once : ∀ id, (disposeAll b fs).fault ≠ some (.doubleDispose id)
  /-- Of records that share a ledger all are disposed or none. -/
  shared : ∀ key, (∀ f ∈ fs, f.record.disposed = false → f.key = key) →
    (disposeAll b fs).fault = none ∧ (disposeAll b fs).records = fs.map Filed.marked ∨
      ∃ f ∈ fs, disposeAll b fs =
        ⟨b, fs, [], some (.disposeWhileInUse f.record.id (b.ledger key).liveThreads)⟩

theorem disposeAll_whole (hfree : ∀ f ∈ fs, f.Free b) : disposeAll b fs =
    ⟨b.settle fs, fs.map Filed.marked, (pending (fs.map Filed.record)).map .disposed, none⟩ := by
  have hall : disposeAll b (fs ++ []) = _ := disposeAll_append hfree
  simpa only [List.append_nil, disposeAll] using hall

theorem disposeAll_halted (hfree : ∀ f ∈ before, f.Free b) (hd : f.record.disposed = false)
    (hlive : 0 < (b.ledger f.key).liveThreads) : disposeAll b (before ++ f :: after) =
      ⟨b.settle before, before.map Filed.marked ++ f :: after,
        (pending (before.map Filed.record)).map .disposed,
        some (.disposeWhileInUse f.record.id (b.ledger f.key).liveThreads)⟩ := by
  have hsame := b.liveThreads_settle before f.key
  rw [disposeAll_append hfree, disposeAll_of_stuck hd (hsame ▸ hlive), hsame, List.append_nil]

/-- Either no record of a set is held up, or there is a first one that is. -/
theorem free_or_halted (b : Books κ) (fs : List (Filed κ)) : (∀ f ∈ fs, f.Free b) ∨
    ∃ before f after, fs = before ++ f :: after ∧ (∀ g ∈ before, g.Free b) ∧
      f.record.disposed = false ∧ 0 < (b.ledger f.key).liveThreads := by
  induction fs with
  | nil => exact .inl nofun
  | cons f fs ih =>
    by_cases hf : f.Free b
    · rcases ih with hfree | ⟨before, g, after, rfl, hbefore, hg⟩
      · exact .inl (List.forall_mem_cons.mpr ⟨hf, hfree⟩)
      · exact .inr ⟨f :: before, g, after, rfl, List.forall_mem_cons.mpr ⟨hf, hbefore⟩, hg⟩
    · obtain ⟨hd, hlive⟩ := Classical.not_imp.mp hf
      exact .inr ⟨[], f, fs, rfl, nofun, hd, Nat.pos_of_ne_zero hlive⟩

/-- Nothing is left to do for a set whose records are all disposed. -/
theorem disposeAll_done (hd : ∀ f ∈ fs, f.record.disposed = true) (b : Books κ) :
    disposeAll b fs = ⟨b, fs, [], none⟩ := by
  have hfree : ∀ f ∈ fs, f.Free b := fun f hf hfresh => by
    rw [hd f hf] at hfresh
    cases hfresh
  rw [disposeAll_whole hfree, Books.settle_of_disposed hd, map_marked_of_disposed hd,
    pending_of_disposed hd]
  rfl

/-- **A set is disposed up to the first record that is held up.** -/
theorem disposesPrefix (b : Books κ) (fs : List (Filed κ)) : DisposesPrefix b fs where
  whole hfree := by
    rw [disposeAll_whole hfree]
    exact ⟨rfl, rfl, rfl, b.ledger_settle fs⟩
  halted before f after hfs hfree hd hlive := by
    rw [hfs, disposeAll_halted hfree hd hlive]
    exact ⟨rfl, rfl, rfl, b.ledger_settle before⟩
  once id := by
    rcases free_or_halted b fs with hfree | ⟨before, f, after, rfl, hfree, hd, hlive⟩
    · rw [disposeAll_whole hfree]
      nofun
    · rw [disposeAll_halted hfree hd hlive]
      nofun
  shared key hkey := by
    rcases free_or_halted b fs with hfree | ⟨before, f, after, rfl, hfree, hd, hlive⟩
    · rw [disposeAll_whole hfree]
      exact .inl ⟨rfl, rfl⟩
    · have hmem : f ∈ before ++ f :: after := List.mem_append_right _ List.mem_cons_self
      have hf : f.key = key := hkey f hmem hd
      -- A fresh record before it would be on the same ledger, and so be held up as well.
      have hdone : ∀ g ∈ before, g.record.disposed = true := fun g hg => by
        by_contra hfresh
        have hfresh : g.record.disposed = false := Bool.not_eq_true _ ▸ hfresh
        have hquiet := hfree g hg hfresh
        rw [hkey g (List.mem_append_left _ hg) hfresh, ← hf] at hquiet
        omega
      refine .inr ⟨f, hmem, ?_⟩
      rw [disposeAll_halted hfree hd hlive, Books.settle_of_disposed hdone,
        map_marked_of_disposed hdone, pending_of_disposed hdone, hf]
      rfl

/-! ## Histories -/

/-- Records of any number of ledgers: those of a set, and others that are held one by one. -/
structure Archive (κ : Type) where
  books : Books κ
  set : List (Filed κ)
  loose : List (Filed κ)

/-- What is done with records and their ledgers. -/
inductive Archive.Move (κ : Type) where
  /-- Disposes the set. -/
  | disposeSet
  /-- Disposes the record at a place of the set. -/
  | disposeMember (i : Nat)
  /-- Disposes the record at a place among those that are held one by one. -/
  | disposeLoose (i : Nat)
  /-- Moves a record that is held by itself to the end of the set. -/
  | collect (i : Nat)
  /-- Starts a thread on a ledger. -/
  | spawn (key : κ)
  /-- Joins a thread of a ledger, if one is live. -/
  | join (key : κ)

/-- Disposes the record at a place of a list, if there is one and it can be disposed. -/
def disposeAt (b : Books κ) (fs : List (Filed κ)) (i : Nat) : Books κ × List (Filed κ) :=
  match fs[i]? with
  | none => (b, fs)
  | some f =>
    match f.dispose b with
    | .ok (f, b) => (b, fs.set i f)
    | .error _ => (b, fs)

namespace Archive

/-- The archive after a move, which changes nothing if it cannot be made. -/
def step (a : Archive κ) : Move κ → Archive κ
  | .disposeSet =>
    let d := disposeAll a.books a.set
    { a with books := d.books, set := d.records }
  | .disposeMember i =>
    let (books, set) := disposeAt a.books a.set i
    { a with books, set }
  | .disposeLoose i =>
    let (books, loose) := disposeAt a.books a.loose i
    { a with books, loose }
  | .collect i => { a with set := a.set ++ a.loose[i]?.toList, loose := a.loose.eraseIdx i }
  | .spawn key =>
    { a with books := a.books.update key ((a.books.ledger key).bump .threadsSpawned) }
  | .join key =>
    if 0 < (a.books.ledger key).liveThreads then
      { a with books := a.books.update key ((a.books.ledger key).bump .threadsJoined) }
    else a

/-- The archive after some moves. -/
def play (a : Archive κ) (moves : List (Move κ)) : Archive κ := moves.foldl step a

/-- All records. -/
def records (a : Archive κ) : List (Filed κ) := a.set ++ a.loose

end Archive

/-- The records of a list were disposed in part: every ledger has counted as many of them as are
marked now and were not before. -/
structure Counted (b : Books κ) (fs : List (Filed κ)) (b' : Books κ) (fs' : List (Filed κ)) :
    Prop where
  same : fs'.map Filed.marked = fs.map Filed.marked
  counted : ∀ key, (b'.ledger key).channelsDisposed + fs.countP (Filed.isClosed key) =
    (b.ledger key).channelsDisposed + fs'.countP (Filed.isClosed key)

/-- The records of a ledger are those that are disposed and those that are not. -/
theorem countP_marked (key : κ) (fs : List (Filed κ)) :
    (fs.map Filed.marked).countP (Filed.isClosed key) =
      fs.countP (Filed.isClosed key) + fs.countP (Filed.isOpen key) := by
  induction fs with
  | nil => rfl
  | cons f fs ih =>
    simp only [List.map_cons, List.countP_cons, ih, Filed.isClosed, Filed.isOpen, Filed.marked]
    by_cases hd : f.record.disposed = true
    · simp only [hd, Bool.not_true, Bool.and_true, Bool.and_false, Bool.false_eq_true, if_false]
      omega
    · simp only [hd, Bool.not_false, Bool.and_true, Bool.and_false, Bool.false_eq_true, if_false]
      omega

namespace Counted

variable {b' : Books κ} {fs' : List (Filed κ)}

theorem refl (b : Books κ) (fs : List (Filed κ)) : Counted b fs b fs := ⟨rfl, fun _ => rfl⟩

/-- All records of a list are disposed. -/
theorem settle (b : Books κ) (fs : List (Filed κ)) :
    Counted b fs (b.settle fs) (fs.map Filed.marked) where
  same := by simp
  counted key := by
    rw [b.ledger_settle, countP_marked]
    simp only [Ledger.disposing]
    omega

/-- Other records are left as they are. -/
theorem frame (h : Counted b fs b' fs') (before after : List (Filed κ)) :
    Counted b (before ++ fs ++ after) b' (before ++ fs' ++ after) where
  same := by rw [List.map_append, List.map_append, h.same, ← List.map_append, ← List.map_append]
  counted key := by
    have hcounted := h.counted key
    simp only [List.countP_append]
    omega

theorem disposeAll (b : Books κ) (fs : List (Filed κ)) :
    Counted b fs (disposeAll b fs).books (disposeAll b fs).records := by
  rcases free_or_halted b fs with hfree | ⟨before, f, after, rfl, hfree, hd, hlive⟩
  · rw [disposeAll_whole hfree]
    exact .settle b fs
  · rw [disposeAll_halted hfree hd hlive]
    exact (Counted.settle b before).frame [] (f :: after)

theorem disposeAt (b : Books κ) (fs : List (Filed κ)) (i : Nat) :
    Counted b fs (disposeAt b fs i).1 (disposeAt b fs i).2 := by
  rw [Relay.disposeAt]
  split
  · exact refl b fs
  · rename_i f hf
    obtain ⟨hi, hget⟩ := List.getElem?_eq_some_iff.mp hf
    split
    · rename_i g b' hdispose
      obtain ⟨hfresh, rfl, rfl⟩ := Filed.of_dispose_ok hdispose
      have hone : Counted b [f] (f.settle b) [f.marked] := by
        have hsettle := Counted.settle b [f]
        rwa [Books.settle, if_neg (Bool.eq_false_iff.mp hfresh)] at hsettle
      have hall := hone.frame (fs.take i) (fs.drop (i + 1))
      rw [List.append_assoc, List.append_assoc, List.singleton_append, List.singleton_append,
        ← hget, List.getElem_cons_drop, List.take_append_drop, hget] at hall
      rwa [List.set_eq_take_append_cons_drop, if_pos hi]
    · exact refl b fs

end Counted

namespace Archive

/-- The records of an archive are those of an earlier one, and every ledger has counted as many of
them as were disposed since. -/
structure Continues (a₀ a : Archive κ) : Prop where
  same : (a.records.map Filed.marked).Perm (a₀.records.map Filed.marked)
  counted : ∀ key, (a.books.ledger key).channelsDisposed + a₀.records.countP (Filed.isClosed key) =
    (a₀.books.ledger key).channelsDisposed + a.records.countP (Filed.isClosed key)
  /-- No record is counted twice. -/
  once : ∀ key, (a.books.ledger key).channelsDisposed ≤
    (a₀.books.ledger key).channelsDisposed + a₀.records.countP (Filed.isOpen key)

omit [DecidableEq κ] in
theorem perm_take (fs : List (Filed κ)) (i : Nat) :
    (fs[i]?.toList ++ fs.eraseIdx i).Perm fs := by
  by_cases hi : i < fs.length
  · rw [List.getElem?_eq_getElem hi]
    exact List.getElem_cons_eraseIdx_perm hi
  · rw [List.getElem?_eq_none (by omega), List.eraseIdx_of_length_le (by omega)]
    rfl

namespace Continues

variable {a₀ a a' : Archive κ}

theorem of_counted (hperm : (a.records.map Filed.marked).Perm (a₀.records.map Filed.marked))
    (hledger : ∀ key, (a.books.ledger key).channelsDisposed +
        a₀.records.countP (Filed.isClosed key) =
      (a₀.books.ledger key).channelsDisposed + a.records.countP (Filed.isClosed key)) :
    Continues a₀ a := by
  refine ⟨hperm, hledger, fun key => ?_⟩
  have hcounted := hledger key
  have hsame := hperm.countP_eq (Filed.isClosed key)
  rw [countP_marked, countP_marked] at hsame
  omega

theorem refl (a : Archive κ) : Continues a a := of_counted (.refl _) fun _ => rfl

theorem trans (h : Continues a₀ a) (h' : Continues a a') : Continues a₀ a' := by
  refine of_counted (h'.same.trans h.same) fun key => ?_
  have hcounted := h.counted key
  have hcounted' := h'.counted key
  omega

end Continues

/-- **Every move counts what it disposes.** -/
theorem continues_step (a : Archive κ) (m : Move κ) : a.Continues (a.step m) := by
  cases m with
  | disposeSet =>
    have hset := (Counted.disposeAll a.books a.set).frame [] a.loose
    exact .of_counted (.of_eq hset.same) hset.counted
  | disposeMember i =>
    have hset := (Counted.disposeAt a.books a.set i).frame [] a.loose
    exact .of_counted (.of_eq hset.same) hset.counted
  | disposeLoose i =>
    have hloose := (Counted.disposeAt a.books a.loose i).frame a.set []
    rw [List.append_nil, List.append_nil] at hloose
    exact .of_counted (.of_eq hloose.same) hloose.counted
  | collect i =>
    have hmoved : (a.step (.collect i)).records.Perm a.records := by
      simp only [step, records, List.append_assoc]
      exact (perm_take a.loose i).append_left _
    exact .of_counted (hmoved.map _) fun key => by rw [hmoved.countP_eq]; rfl
  | spawn key =>
    refine .of_counted (.refl _) fun other => ?_
    rw [step, Books.ledger_update]
    split <;> simp_all [records, Ledger.bump, Ledger.write, Ledger.read]
  | join key =>
    rw [step]
    split
    · refine .of_counted (.refl _) fun other => ?_
      rw [Books.ledger_update]
      split <;> simp_all [records, Ledger.bump, Ledger.write, Ledger.read]
    · exact .refl a

theorem continues_play (a : Archive κ) (moves : List (Move κ)) : a.Continues (a.play moves) := by
  induction moves generalizing a with
  | nil => exact .refl a
  | cons m moves ih => exact (a.continues_step m).trans (ih _)

/-! ### Finished sets -/

/-- Whether the records of the set are all disposed. -/
def Done (a : Archive κ) : Prop := ∀ f ∈ a.set, f.record.disposed = true

variable {a : Archive κ} {m : Move κ} {moves : List (Move κ)}

theorem Done.step (h : a.Done) (hm : ∀ i, m ≠ .collect i) : (a.step m).Done := by
  cases m with
  | disposeSet =>
    show ∀ f ∈ (disposeAll a.books a.set).records, _
    rw [disposeAll_done h]
    exact h
  | disposeMember i =>
    show ∀ f ∈ (disposeAt a.books a.set i).2, _
    rw [disposeAt]
    split
    · exact h
    · rename_i f hf
      rw [Filed.dispose_of_disposed (h f (List.mem_of_getElem? hf))]
      exact h
  | collect i => exact absurd rfl (hm i)
  | join key =>
    rw [Archive.step]
    split <;> exact h
  | disposeLoose | spawn => exact h

theorem Done.play (h : a.Done) (hm : ∀ i, .collect i ∉ moves) : (a.play moves).Done := by
  induction moves generalizing a with
  | nil => exact h
  | cons m moves ih =>
    exact ih (h.step fun i hi => hm i (hi ▸ List.mem_cons_self))
      fun i hi => hm i (List.mem_cons_of_mem _ hi)

/-- While no thread is live, one call finishes the set, and later calls change nothing. -/
def Finishes (a : Archive κ) : Prop :=
  (∀ key, (a.books.ledger key).liveThreads = 0) →
    (disposeAll a.books a.set).fault = none ∧
      ∀ moves, (∀ i, Move.collect i ∉ moves) →
        let later := (a.step .disposeSet).play moves
        disposeAll later.books later.set = ⟨later.books, later.set, [], none⟩

theorem finishes (a : Archive κ) : a.Finishes := by
  intro hquiet
  have hall : disposeAll a.books a.set = _ := disposeAll_whole fun f _ _ => hquiet f.key
  have hdone : (a.step .disposeSet).Done := by
    show ∀ f ∈ (disposeAll a.books a.set).records, _
    rw [hall, List.forall_mem_map]
    exact fun _ _ => rfl
  exact ⟨congrArg Disposal.fault hall, fun moves hm => disposeAll_done (hdone.play hm) _⟩

/-- **A set is disposed in order, up to the first record that is held up, by any number of calls.**
Whatever was done with the records and their ledgers before, a call disposes what comes before that
record and nothing else, every ledger has counted each of its records at most once, and a call while
no thread is live finishes the set. -/
theorem disposes_in_order (a : Archive κ) (moves : List (Move κ)) :
    DisposesPrefix (a.play moves).books (a.play moves).set ∧ a.Continues (a.play moves) ∧
      (a.play moves).Finishes :=
  ⟨disposesPrefix _ _, a.continues_play moves, (a.play moves).finishes⟩

/-- Three records on two ledgers, one of which has a live thread. -/
def specimen : Archive String where
  books := [("busy", { channelsCreated := 1, threadsSpawned := 1 }),
    ("quiet", { channelsCreated := 2 })]
  set := [⟨"quiet", { id := 1, capacity := 1 }⟩, ⟨"busy", { id := 1, capacity := 1 }⟩,
    ⟨"quiet", { id := 2, capacity := 1 }⟩]
  loose := []

theorem quiet_specimen (key : String) :
    ((specimen.play [.disposeSet, .join "busy"]).books.ledger key).liveThreads = 0 := by
  have hbooks : (specimen.play [.disposeSet, .join "busy"]).books =
      [("busy", { channelsCreated := 1, threadsSpawned := 1, threadsJoined := 1 }),
        ("quiet", { channelsCreated := 2, channelsDisposed := 1 })] := by
    decide +kernel
  rw [hbooks, Books.ledger, Books.ledger, Books.ledger]
  split
  · rfl
  · split <;> rfl

/-- The first call stops at the second record; once the thread is joined, the next one finishes the
set. -/
theorem disposes_in_order_specimen :
    (disposeAll specimen.books specimen.set).fault = some (.disposeWhileInUse 1 1) ∧
      (disposeAll specimen.books specimen.set).records.map (fun f => f.record.disposed) =
        [true, false, false] ∧
      (disposeAll (specimen.play [.disposeSet, .join "busy"]).books
        (specimen.play [.disposeSet, .join "busy"]).set).fault = none := by
  have halted := (specimen.disposes_in_order []).1.halted
    [⟨"quiet", { id := 1, capacity := 1 }⟩] ⟨"busy", { id := 1, capacity := 1 }⟩
    [⟨"quiet", { id := 2, capacity := 1 }⟩] rfl
    (List.forall_mem_singleton.mpr fun _ => by decide) rfl (by decide)
  have hfinishes := (specimen.disposes_in_order [.disposeSet, .join "busy"]).2.2 quiet_specimen
  obtain ⟨hfault, hrecords, -⟩ := halted
  refine ⟨hfault, ?_, hfinishes.1⟩
  rw [show specimen = specimen.play [] from rfl, hrecords]
  rfl

end Archive

end Relay

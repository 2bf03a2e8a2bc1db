import Relay.Proofs.Invocation.Journal
import Relay.Proofs.Invocation.Outcome

/-!
# The tally of a history

A ledger that one thread works on can be told from the history of events and from what the thread
holds: the channels that were created have the numbers from one on, and each of them was disposed,
or is still pending, or is lost (`Tally`). Every elementary operation keeps the tally:

* `Tally.create`, `Tally.dispose`, `Tally.forget`, `Tally.lose`: a record is made, disposed, or
  dropped;
* `Tally.keep`: threads are started and joined;
* `Tally.run`: a pipeline is run from its start to its end.

What the tally says of the counters is read off it: `Tally.disposed_iff`, `Tally.liveThreads_eq`,
`Tally.isBalanced_iff`.
-/

namespace Relay

/-- The channels whose records are held and not disposed. -/
def pending (held : List Record) : List Nat :=
  (held.filter fun r => !r.disposed).map Record.id

/-- The ledger, the records that are held and the threads that are waited for agree with the
history. -/
structure Tally (history : List Event) (held : List Record) (handles : Nat) (l : Ledger) :
    Prop where
  created : history.filterMap Event.created? = List.range' 1 l.channelsCreated
  disposed : (history.filterMap Event.disposed?).length = l.channelsDisposed
  threads : l.threadsSpawned = l.threadsJoined + handles
  /-- Each channel is in one place. -/
  placed : (history.filterMap Event.disposed? ++ pending held ++
    history.filterMap Event.lost?).Perm (history.filterMap Event.created?)
  marked : ∀ r ∈ held, r.disposed = true → r.id ∈ history.filterMap Event.disposed?

namespace Tally

variable {history events : List Event} {held held' : List Record} {r : Record} {n n' : Nat}
  {l l' : Ledger}

theorem pending_cons_of_disposed (hr : r.disposed = true) : pending (r :: held) = pending held := by
  simp [pending, hr]

theorem pending_cons (hr : r.disposed = false) : pending (r :: held) = r.id :: pending held := by
  simp [pending, hr]

section Views

variable {τ : Type} {f : Event → Option τ} {e : Event}

theorem filterMap_concat_none (he : f e = none) :
    (history ++ [e]).filterMap f = history.filterMap f := by
  rw [List.filterMap_append, List.filterMap_cons_none he, List.filterMap_nil, List.append_nil]

theorem filterMap_concat_some (e : Event) (x : τ) (he : f e = some x) :
    (history ++ [e]).filterMap f = history.filterMap f ++ [x] := by
  rw [List.filterMap_append, List.filterMap_cons_some he, List.filterMap_nil]

theorem filterMap_append_none (he : ∀ e ∈ events, f e = none) :
    (history ++ events).filterMap f = history.filterMap f := by
  rw [List.filterMap_append, List.filterMap_eq_nil_iff.mpr he, List.append_nil]

end Views

theorem start : Tally [] [] 0 .empty where
  created := rfl
  disposed := rfl
  threads := rfl
  placed := List.Perm.refl _
  marked := nofun

/-! ## What the tally says -/

section

variable (h : Tally history held n l)

include h

theorem nodup : (history.filterMap Event.disposed? ++ pending held ++
    history.filterMap Event.lost?).Nodup := by
  refine h.placed.nodup_iff.mpr ?_
  rw [h.created]
  exact List.nodup_range'

/-- No channel was disposed twice. -/
theorem nodup_disposed : (history.filterMap Event.disposed?).Nodup :=
  (List.nodup_append.mp (List.nodup_append.mp h.nodup).1).1

/-- A record that is held is marked if and only if its channel was disposed. -/
theorem disposed_iff (hr : r ∈ held) :
    r.disposed = true ↔ r.id ∈ history.filterMap Event.disposed? := by
  refine ⟨h.marked r hr, fun hm => ?_⟩
  by_contra hfresh
  have hpending : r.id ∈ pending held :=
    List.mem_map_of_mem (List.mem_filter.mpr ⟨hr, by simp [hfresh]⟩)
  exact (List.nodup_append.mp (List.nodup_append.mp h.nodup).1).2.2 _ hm _ hpending rfl

theorem liveThreads_eq : l.liveThreads = n := by
  rw [Ledger.liveThreads, h.threads, Nat.add_sub_cancel_left]

theorem channelsCreated_eq : l.channelsCreated =
    l.channelsDisposed + (pending held).length + (history.filterMap Event.lost?).length := by
  have hlength := h.placed.length_eq
  rw [h.created, List.length_range', List.length_append, List.length_append, h.disposed] at hlength
  exact hlength.symm

/-- **The ledger is balanced** if and only if no thread is waited for, every record that is held is
disposed, and no channel was lost. -/
theorem isBalanced_iff : l.isBalanced = true ↔
    n = 0 ∧ (∀ r ∈ held, r.disposed = true) ∧ history.filterMap Event.lost? = [] := by
  have hcreated := h.channelsCreated_eq
  have hpending : pending held = [] ↔ ∀ r ∈ held, r.disposed = true := by
    simp [pending, List.filter_eq_nil_iff]
  rw [Ledger.isBalanced_iff, h.liveThreads_eq, Ledger.liveChannels, ← hpending,
    ← List.length_eq_zero_iff, ← List.length_eq_zero_iff]
  omega

end

/-! ## Operations -/

theorem perm (h : Tally history held n l) (hperm : held.Perm held') : Tally history held' n l where
  created := h.created
  disposed := h.disposed
  threads := h.threads
  placed := by
    have hpending : (pending held').Perm (pending held) := ((hperm.filter _).map _).symm
    exact ((hpending.append_left _).append_right _).trans h.placed
  marked := fun r hr => h.marked r (hperm.mem_iff.mpr hr)

/-- A channel is created. -/
theorem create (h : Tally history held n l) (capacity : Capacity) :
    Tally (history ++ [(Record.create capacity l).1.creation])
      ((Record.create capacity l).1 :: held) n (Record.create capacity l).2 where
  created := by
    rw [filterMap_concat_some _ (l.channelsCreated + 1) rfl, h.created]
    rw [Nat.add_comm l.channelsCreated 1]
    exact List.range'_1_concat.symm
  disposed := by
    rw [filterMap_concat_none rfl]
    exact h.disposed
  threads := h.threads
  placed := by
    rw [filterMap_concat_none rfl, filterMap_concat_none rfl,
      filterMap_concat_some _ (l.channelsCreated + 1) rfl, pending_cons rfl, List.append_assoc,
      List.cons_append]
    refine List.perm_middle.trans (List.Perm.trans ?_ (List.perm_append_singleton _ _).symm)
    rw [← List.append_assoc]
    exact h.placed.cons _
  marked := by
    rw [filterMap_concat_none rfl]
    exact List.forall_mem_cons.mpr ⟨nofun, h.marked⟩

/-- A record that is not disposed yet is disposed. -/
theorem dispose (h : Tally history (r :: held) n l) (hr : r.disposed = false) :
    Tally (history ++ [.disposed r.id]) ({ r with disposed := true } :: held) n
      (l.bump .channelsDisposed) where
  created := by
    rw [filterMap_concat_none rfl]
    exact h.created
  disposed := by
    rw [filterMap_concat_some _ r.id rfl, List.length_append, h.disposed]
    rfl
  threads := h.threads
  placed := by
    have hplaced := h.placed
    rw [pending_cons hr] at hplaced
    rw [filterMap_concat_some _ r.id rfl, filterMap_concat_none rfl, filterMap_concat_none rfl,
      pending_cons_of_disposed rfl, List.append_assoc (_ ++ _), List.append_assoc]
    simpa using hplaced
  marked := by
    rw [filterMap_concat_some _ r.id rfl]
    refine List.forall_mem_cons.mpr ⟨fun _ => List.mem_append_right _ List.mem_cons_self, ?_⟩
    exact fun x hx hd => List.mem_append_left _ (h.marked x (List.mem_cons_of_mem _ hx) hd)

/-- A record that was disposed is dropped. -/
theorem forget (h : Tally history (r :: held) n l) (hr : r.disposed = true) :
    Tally history held n l where
  created := h.created
  disposed := h.disposed
  threads := h.threads
  placed := pending_cons_of_disposed hr ▸ h.placed
  marked := fun x hx => h.marked x (List.mem_cons_of_mem _ hx)

/-- A record that is not disposed is dropped while threads are live. -/
theorem lose (h : Tally history (r :: held) n l) (hr : r.disposed = false) (live : Nat) :
    Tally (history ++ [.warning (.disposeWhileInUse r.id live)]) held n l where
  created := by
    rw [filterMap_concat_none rfl]
    exact h.created
  disposed := by
    rw [filterMap_concat_none rfl]
    exact h.disposed
  threads := h.threads
  placed := by
    have hplaced := h.placed
    rw [pending_cons hr, List.append_assoc, List.cons_append] at hplaced
    rw [filterMap_concat_none rfl, filterMap_concat_some _ r.id rfl, filterMap_concat_none rfl,
      ← List.append_assoc]
    refine (List.perm_append_singleton _ _).trans (List.Perm.trans ?_ hplaced)
    rw [List.append_assoc]
    exact List.perm_middle.symm
  marked := by
    rw [filterMap_concat_none rfl]
    exact fun x hx => h.marked x (List.mem_cons_of_mem _ hx)

/-- Threads come and go, and nothing is told of channels. -/
theorem keep (h : Tally history held n l)
    (hsilent : ∀ e ∈ events, e.created? = none ∧ e.released? = none)
    (hcreated : l'.channelsCreated = l.channelsCreated)
    (hdisposed : l'.channelsDisposed = l.channelsDisposed)
    (hthreads : l'.threadsSpawned = l'.threadsJoined + n') :
    Tally (history ++ events) held n' l' := by
  have hcreated' : (history ++ events).filterMap Event.created? =
      history.filterMap Event.created? :=
    filterMap_append_none fun e he => (hsilent e he).1
  have hdisposed' : (history ++ events).filterMap Event.disposed? =
      history.filterMap Event.disposed? :=
    filterMap_append_none fun e he => (Option.or_eq_none_iff.mp (hsilent e he).2).1
  have hlost : (history ++ events).filterMap Event.lost? = history.filterMap Event.lost? :=
    filterMap_append_none fun e he => (Option.or_eq_none_iff.mp (hsilent e he).2).2
  refine ⟨?_, ?_, hthreads, ?_, ?_⟩
  · rw [hcreated', hcreated, h.created]
  · rw [hdisposed', hdisposed, h.disposed]
  · rw [hcreated', hdisposed', hlost]
    exact h.placed
  · rw [hdisposed']
    exact h.marked

/-- A thread is started. -/
theorem spawn (h : Tally history held n l) (stage : String) :
    Tally (history ++ [.spawned stage]) held (n + 1) (l.bump .threadsSpawned) :=
  h.keep (List.forall_mem_singleton.mpr ⟨rfl, rfl⟩) rfl rfl (congrArg (· + 1) h.threads)

end Tally

/-! ## Joining -/

/-- What joining all threads of some handles does to the ledger. -/
theorem joinFrom_ledger (panicked : Nat → Bool) (fault : Option Fault) (crew : List Handle)
    (l : Ledger) : (joinFrom panicked fault crew l).2.1 =
      { l with threadsJoined := l.threadsJoined + crew.length } := by
  induction crew generalizing fault l with
  | nil => rfl
  | cons hd crew ih =>
    refine (ih _ _).trans ?_
    rw [List.length_cons, Nat.add_comm crew.length 1, ← Nat.add_assoc]
    rfl

theorem joinFrom_events (panicked : Nat → Bool) (fault : Option Fault) (crew : List Handle)
    (l : Ledger) : (joinFrom panicked fault crew l).2.2 = crew.map fun hd => .joined hd.stage := by
  induction crew generalizing fault l with
  | nil => rfl
  | cons hd crew ih => exact congrArg (_ :: ·) (ih _ _)

/-- A fault to tell of after a join is the one that came up before, or a panic. -/
theorem Handle.outcome_eq_some {hd : Handle} {panicked : Bool} {first : Option Fault}
    {fault : Fault} (h : hd.outcome panicked first = some fault) :
    first = some fault ∨ fault = .stagePanicked hd.stage := by
  cases first with
  | some f => exact .inl h
  | none =>
    cases panicked with
    | true => exact .inr (Option.some.inj h).symm
    | false => cases h

theorem joinFrom_fault (panicked : Nat → Bool) {crew : List Handle} {first : Option Fault}
    {l : Ledger} {fault : Fault} (h : (joinFrom panicked first crew l).1 = some fault) :
    first = some fault ∨ ∃ stage, fault = .stagePanicked stage := by
  induction crew generalizing first l with
  | nil => exact .inl h
  | cons hd crew ih =>
    rcases ih h with h | h
    · exact (Handle.outcome_eq_some h).imp_right fun h => ⟨_, h⟩
    · exact .inr h

namespace Tally

variable {history : List Event} {held : List Record} {n : Nat} {l : Ledger} {crew : List Handle}

/-- All threads of some handles are joined. -/
theorem joinAll (h : Tally history held (n + crew.length) l) (panicked : Nat → Bool) :
    Tally (history ++ (joinAll panicked crew l).2.2) held n (joinAll panicked crew l).2.1 := by
  rw [Relay.joinAll, joinFrom_events, joinFrom_ledger]
  refine h.keep (fun e he => ?_) rfl rfl ?_
  · obtain ⟨hd, -, rfl⟩ := List.mem_map.mp he
    exact ⟨rfl, rfl⟩
  · show l.threadsSpawned = l.threadsJoined + crew.length + n
    rw [h.threads]
    omega

/-- A crew is dropped. -/
theorem dropCrew (h : Tally history held (n + crew.length) l) (panicked : Nat → Bool) :
    Tally (history ++ (dropCrew panicked crew l).2) held n (dropCrew panicked crew l).1 := by
  have hjoined := h.joinAll panicked
  rw [Relay.dropCrew]
  simp only
  rw [← List.append_assoc]
  refine hjoined.keep (fun e he => ?_) rfl rfl hjoined.threads
  obtain ⟨fault, hfault, rfl⟩ := Option.map_eq_some_iff.mp (Option.mem_toList.mp he)
  obtain hnone | ⟨stage, rfl⟩ := joinFrom_fault panicked hfault
  · cases hnone
  · exact ⟨rfl, rfl⟩

end Tally

/-! ## Records on their ledgers -/

variable {κ : Type}

/-- A record after its channel was disposed. -/
def Filed.marked (f : Filed κ) : Filed κ :=
  { f with record := { f.record with disposed := true } }

namespace Tally

variable [DecidableEq κ] {history : List Event} {held : List Record} {n : Nat} {b : Books κ}
  {f : Filed κ}

/-- **What disposing a record comes to**: it is refused if the channel was disposed before, then if
some thread is waited for, and nothing else keeps it back. -/
theorem filed_dispose (h : Tally history (f.record :: held) n (b.ledger f.key)) :
    f.dispose b =
      if f.record.disposed then .error (.doubleDispose f.record.id)
      else if 0 < n then .error (.disposeWhileInUse f.record.id n)
      else .ok (f.marked, b.update f.key ((b.ledger f.key).bump .channelsDisposed)) := by
  rw [Filed.dispose, Record.dispose, Ledger.snapshot_eq, h.liveThreads_eq]
  by_cases hd : f.record.disposed = true
  · rw [if_pos hd, if_pos hd]
  · rw [if_neg hd, if_neg hd]
    by_cases hn : 0 < n
    · rw [if_pos hn, if_pos hn]
    · rw [if_neg hn, if_neg hn]
      rfl

/-- A record that is dropped is disposed or lost, if it was not disposed before. -/
theorem filed_drop (h : Tally history (f.record :: held) n (b.ledger f.key)) :
    Tally (history ++ (f.drop b).2) held n ((f.drop b).1.ledger f.key) := by
  rw [Filed.drop]
  simp only [Books.ledger_update_self]
  by_cases hd : f.record.disposed = true
  · rw [Record.drop, if_pos hd, List.append_nil]
    exact h.forget hd
  · have hfresh : f.record.disposed = false := Bool.not_eq_true _ ▸ hd
    rw [Record.drop_fst hfresh, Record.drop_snd hfresh, Record.release]
    split
    next hquiet => exact (h.dispose hfresh).forget rfl
    next hlive => exact h.lose hfresh _

variable {key : κ} {fs : List (Filed κ)}

/-- The records of a set are dropped. -/
theorem dropAll (h : Tally history (fs.map Filed.record ++ held) n (b.ledger key))
    (hkey : ∀ f ∈ fs, f.key = key) :
    Tally (history ++ (dropAll b fs).2) held n ((dropAll b fs).1.ledger key) := by
  induction fs generalizing history b with
  | nil => rwa [Relay.dropAll, List.append_nil]
  | cons f fs ih =>
    obtain ⟨rfl, hrest⟩ := List.forall_mem_cons.mp hkey
    rw [Relay.dropAll]
    simp only
    rw [← List.append_assoc]
    exact ih h.filed_drop hrest

/-- While threads are live, a set is left as it is, and the first record that is not disposed is
told of. -/
theorem disposeAll_of_live {live : Nat} (hlive : (b.ledger key).liveThreads = live + 1)
    (hkey : ∀ f ∈ fs, f.key = key) :
    Relay.disposeAll b fs = ⟨b, fs, [], (fs.find? fun f => !f.record.disposed).map fun f =>
      .disposeWhileInUse f.record.id (live + 1)⟩ := by
  induction fs with
  | nil => rfl
  | cons f fs ih =>
    obtain ⟨rfl, hrest⟩ := List.forall_mem_cons.mp hkey
    rw [Relay.disposeAll]
    by_cases hd : f.record.disposed = true
    · rw [if_pos hd, ih hrest, List.find?_cons_of_neg (by simp [hd])]
    · have hfresh : f.record.disposed = false := Bool.not_eq_true _ ▸ hd
      rw [if_neg hd, Filed.dispose, Record.dispose_of_live hfresh (by omega),
        List.find?_cons_of_pos (by simp [hfresh]), hlive]
      rfl

/-- While no thread is live, every record of a set is disposed that was not before. -/
theorem disposeAll_of_quiet (hquiet : (b.ledger key).liveThreads = 0)
    (hkey : ∀ f ∈ fs, f.key = key) :
    (Relay.disposeAll b fs).fault = none ∧ (Relay.disposeAll b fs).records = fs.map Filed.marked ∧
      (Relay.disposeAll b fs).events = (pending (fs.map Filed.record)).map .disposed := by
  induction fs generalizing b with
  | nil => exact ⟨rfl, rfl, rfl⟩
  | cons f fs ih =>
    obtain ⟨rfl, hrest⟩ := List.forall_mem_cons.mp hkey
    rw [Relay.disposeAll]
    by_cases hd : f.record.disposed = true
    · have hmarked : f.marked = f := by rw [Filed.marked, ← hd]
      obtain ⟨hfault, hrecords, hevents⟩ := ih hquiet hrest
      rw [if_pos hd, List.map_cons, List.map_cons, hmarked, pending_cons_of_disposed hd]
      exact ⟨hfault, congrArg (f :: ·) hrecords, hevents⟩
    · have hfresh : f.record.disposed = false := Bool.not_eq_true _ ▸ hd
      have hquiet' : ((b.update f.key ((b.ledger f.key).bump .channelsDisposed)).ledger
          f.key).liveThreads = 0 := by
        rw [Books.ledger_update_self]
        exact hquiet
      obtain ⟨hfault, hrecords, hevents⟩ := ih hquiet' hrest
      rw [if_neg hd, Filed.dispose, Record.dispose_of_quiet hfresh hquiet, List.map_cons,
        List.map_cons, pending_cons hfresh]
      exact ⟨hfault, congrArg (f.marked :: ·) hrecords,
        congrArg (.disposed f.record.id :: ·) hevents⟩

/-- Disposing a set leaves every record on its ledger. -/
theorem disposeAll_keys (b : Books κ) (fs : List (Filed κ)) :
    (Relay.disposeAll b fs).records.map Filed.key = fs.map Filed.key := by
  induction fs generalizing b with
  | nil => rfl
  | cons f fs ih =>
    rw [Relay.disposeAll]
    split
    next => exact congrArg (f.key :: ·) (ih b)
    next =>
      split
      next g b' hdispose =>
        have hkey : g.key = f.key := by
          rw [Filed.dispose] at hdispose
          split at hdispose <;> cases hdispose
          rfl
        rw [List.map_cons, List.map_cons, hkey, ih b']
      next => rfl

/-- The records of a set are disposed, up to the first that cannot be. -/
theorem disposeAll (h : Tally history (fs.map Filed.record ++ held) n (b.ledger key))
    (hkey : ∀ f ∈ fs, f.key = key) :
    Tally (history ++ (disposeAll b fs).events) ((disposeAll b fs).records.map Filed.record ++ held)
      n ((disposeAll b fs).books.ledger key) := by
  induction fs generalizing history b held with
  | nil => rwa [Relay.disposeAll, List.append_nil]
  | cons f fs ih =>
    obtain ⟨rfl, hrest⟩ := List.forall_mem_cons.mp hkey
    rw [Relay.disposeAll]
    by_cases hd : f.record.disposed = true
    · have hlater := h.perm List.perm_middle.symm
      have hall := ih hlater hrest
      rw [if_pos hd]
      exact hall.perm List.perm_middle
    · rw [if_neg hd, h.filed_dispose, if_neg hd]
      by_cases hn : 0 < n
      · rw [if_pos hn, List.append_nil]
        exact h
      · have hfresh : f.record.disposed = false := Bool.not_eq_true _ ▸ hd
        have hone : Tally (history ++ [.disposed f.record.id])
            (f.marked.record :: (fs.map Filed.record ++ held)) n
            ((b.update f.key ((b.ledger f.key).bump .channelsDisposed)).ledger f.key) := by
          rw [Books.ledger_update_self]
          exact h.dispose hfresh
        have hall := ih (hone.perm List.perm_middle.symm) hrest
        rw [if_neg hn]
        simp only
        rw [List.append_cons]
        exact hall.perm List.perm_middle

/-! ## Whole runs -/

omit [DecidableEq κ] in
theorem ids_filed {α ω : Type} (p : Plan α ω) (l : Ledger) (m : Nat) :
    (p.filed l 0 m).map Record.id = List.range' (1 + l.channelsCreated) m := by
  induction m with
  | zero => rfl
  | succ m ih =>
    have hlast : (p.fresh l (0 + m)).id = 1 + l.channelsCreated + m := by
      show l.channelsCreated + (0 + m) + 1 = 1 + l.channelsCreated + m
      omega
    rw [Plan.filed_snoc, List.map_append, ih, List.range'_1_concat, List.map_singleton, hlast]

/-- A pipeline is run from its start to its end. -/
theorem run {α ω : Type} {l : Ledger} (h : Tally history held n l) (p : Pipeline α ω) (input : α)
    (host : Nat → String → SpawnOutcome) :
    Tally (history ++ (p.run input l host).log) held n (p.run input l host).ledger := by
  rw [Pipeline.run_log, Pipeline.run_ledger]
  generalize Plan.mk p input host = plan
  have hcreated := plan.created_journal l
  rw [ids_filed] at hcreated
  have hcreated' : (history ++ plan.journal l).filterMap Event.created? =
      List.range' 1 (l.channelsCreated + plan.channels) := by
    rw [List.filterMap_append, h.created, hcreated]
    exact List.range'_append_1
  have hthreads : l.threadsSpawned + plan.started = l.threadsJoined + plan.started + n := by
    rw [h.threads]
    omega
  have hmarked : ∀ r ∈ held, r.disposed = true →
      r.id ∈ (history ++ plan.journal l).filterMap Event.disposed? := fun r hr hd => by
    rw [List.filterMap_append]
    exact List.mem_append_left _ (h.marked r hr hd)
  have hplaced := h.placed
  rw [h.created] at hplaced
  by_cases hlive : l.liveThreads = 0
  · obtain ⟨hdisposed, hlost⟩ := plan.disposed_journal_of_quiet hlive
    rw [ids_filed] at hdisposed
    refine ⟨hcreated', ?_, hthreads, ?_, hmarked⟩
    · rw [List.filterMap_append, List.length_append, h.disposed, hdisposed, List.length_range',
        Ledger.after, if_pos hlive]
    · rw [hcreated', List.filterMap_append, hdisposed, List.filterMap_append, hlost,
        List.append_nil, ← List.range'_append_1, List.append_assoc (_ ++ _), List.append_assoc]
      refine (List.perm_append_comm.append_left _).trans ?_
      rw [← List.append_assoc, ← List.append_assoc]
      exact hplaced.append_right _
  · obtain ⟨hdisposed, hlost⟩ := plan.lost_journal_of_live hlive
    rw [ids_filed] at hlost
    refine ⟨hcreated', ?_, hthreads, ?_, hmarked⟩
    · rw [List.filterMap_append, List.length_append, h.disposed, hdisposed, Ledger.after,
        if_neg hlive]
      rfl
    · rw [hcreated', List.filterMap_append, hdisposed, List.append_nil, List.filterMap_append,
        hlost, ← List.append_assoc, ← List.range'_append_1]
      exact hplaced.append_right _

end Tally

end Relay

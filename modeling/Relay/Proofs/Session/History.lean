import Relay.Proofs.Session.Actions

/-!
# Whole histories of a session

A session that works on one ledger from its start, whatever is done with its objects and in whatever
order (`Session.Reaches`), agrees with the history of what it logged:

* `Reaches.tally`, `Reaches.accounted`: the counters of the ledger, the marks of the records that
  are held and the balance are what the history and the objects say;
* `Reaches.disposeRecord_answer`, `Reaches.dispose_answer`, `Reaches.disposeSet_answer`: so is what
  an attempt to dispose comes to (`Session.attempt`), as a record, as a channel with both its ends,
  and as a set of records;
* `Reaches.create_answer`, `create_refused`: channels are numbered in the order of their creation;
* `Reaches.keeps_tally`: all of this at once.
-/

namespace Relay.Session

variable {key name : String} {past history : List Event} {hand : List (Filed String)} {n : Nat}
  {s : Session} {host : Host}

/-! ## Reachable sessions -/

/-- The session `s` can be reached by actions that all work on the ledger named `key`, and
`history` is what they logged. -/
inductive Reaches (key : String) : List Event → Session → Prop
  | start : Reaches key [] {}
  | act {history : List Event} {s : Session} (a : Action) (host : Host) : Reaches key history s →
    Reaches key (history ++ (s.act key a host).2.log) (s.act key a host).2

/-- A step of the threads is one of a single thread. -/
theorem of_threadStep {s s' : Session} (h : s.threadStep = some s') :
    ∃ i t t' channels note, s.tasks[i]? = some t ∧
      t.step s.channels = some (t', channels, note) ∧
      s' = { s with tasks := s.tasks.setIfInBounds i t', channels } := by
  obtain ⟨i, -, hi⟩ := List.exists_of_findSome?_eq_some h
  simp only [Option.bind_eq_bind, Option.bind_eq_some_iff, Option.pure_def,
    Option.some.injEq] at hi
  obtain ⟨t, ht, ⟨t', channels, note⟩, hstep, rfl⟩ := hi
  exact ⟨i, t, t', channels, note, ht, hstep, rfl⟩

/-- What each step of the threads keeps is kept until they have settled. -/
theorem settle_induction {P : Session → Prop} (hstep : ∀ s s', s.threadStep = some s' → P s → P s')
    (h : P s) : P s.settle := by
  have hfor : ∀ fuel s, P s → P (settleFor fuel s) := fun fuel => by
    induction fuel with
    | zero => exact fun s h => h
    | succ fuel ih =>
      intro s h
      rw [settleFor]
      split
      next s' hs => exact ih s' (hstep s s' hs h)
      next => exact h
  exact hfor _ s h

/-- Threads go on with channels and with themselves only. -/
theorem settle_eq (s : Session) : ∃ channels tasks, s.settle = { s with channels, tasks } := by
  refine settle_induction (P := fun s' => ∃ channels tasks, s' = { s with channels, tasks })
    (fun s₁ s₂ hstep hs => ?_) ⟨s.channels, s.tasks, rfl⟩
  obtain ⟨channels, tasks, rfl⟩ := hs
  obtain ⟨i, t, t', channels', note, -, -, rfl⟩ := of_threadStep hstep
  exact ⟨channels', _, rfl⟩

theorem Kept.settle (h : s.Kept key past hand n) : s.settle.Kept key past hand n := by
  obtain ⟨channels, tasks, heq⟩ := settle_eq s
  rw [heq]
  exact h.frame channels tasks s.senders s.receivers

theorem settle_log (s : Session) : s.settle.log = s.log := by
  obtain ⟨channels, tasks, heq⟩ := settle_eq s
  rw [heq]

/-- The session at the start of an action. -/
def ready (s : Session) (key : String) : Session :=
  ({ s with log := [] } : Session).openLedger key

/-- What was logged becomes part of the history when an action starts. -/
theorem Kept.ready (h : s.Kept key past hand n) :
    (s.ready key).Kept key (past ++ s.log) hand n := by
  refine { h with tally := ?_ }
  show Tally (past ++ s.log ++ []) _ _ ((s.books.update _ _).ledger _)
  rw [List.append_nil, Books.ledger_update_self]
  exact h.tally

theorem act_reply (a : Action) : (s.act key a host).1 = ((s.ready key).perform host key a).1 :=
  rfl

theorem act_log (a : Action) :
    (s.act key a host).2.log = ((s.ready key).perform host key a).2.log :=
  settle_log _

theorem kept_start (key : String) : Kept key [] [] 0 {} where
  tally := .start
  filed := nofun
  hired := nofun
  wholes := Directory.ascending_nil
  records := Directory.ascending_nil
  sets := Directory.ascending_nil
  crews := Directory.ascending_nil

/-- A session that is reached agrees with its history when the next action starts. -/
theorem Reaches.ready (h : Reaches key history s) : (s.ready key).Kept key history [] 0 := by
  induction h with
  | start => exact (kept_start key).ready
  | @act history s a host _ ih =>
    have hdone : (s.act key a host).2.Kept key history [] 0 := (ih.perform a).settle
    exact hdone.ready

theorem ready_ledger (s : Session) (key : String) :
    (s.ready key).books.ledger key = s.books.ledger key :=
  Books.ledger_update_self ..

/-- **The ledger agrees with the history**, and with what the session holds. -/
theorem Reaches.tally (h : Reaches key history s) :
    Tally history (s.held.map Filed.record) (handleCount s.crews) (s.books.ledger key) := by
  have htally : Tally (history ++ []) (s.held.map Filed.record) (0 + handleCount s.crews)
      ((s.ready key).books.ledger key) := h.ready.tally
  rwa [List.append_nil, Nat.zero_add, ready_ledger] at htally

/-! ## Attempts to dispose -/

/-- What an attempt to dispose a channel comes to, and what it logs: `disposed` are the channels
that were disposed before, and `live` threads are waited for. -/
def attempt (disposed : List Nat) (live id : Nat) (refused : List Event) : Outcome × List Event :=
  if id ∈ disposed then (.fault (.doubleDispose id), [])
  else if 0 < live then (.fault (.disposeWhileInUse id live), refused)
  else (.done, [.disposed id])

section

variable {disposed : List Nat} {live id : Nat} {refused : List Event}

theorem attempt_of_mem (hd : id ∈ disposed) :
    attempt disposed live id refused = (.fault (.doubleDispose id), []) :=
  if_pos hd

theorem attempt_of_live (hd : id ∉ disposed) (hlive : 0 < live) :
    attempt disposed live id refused = (.fault (.disposeWhileInUse id live), refused) :=
  (if_neg hd).trans (if_pos hlive)

theorem attempt_of_quiet (hd : id ∉ disposed) (hlive : ¬ 0 < live) :
    attempt disposed live id refused = (.done, [.disposed id]) :=
  (if_neg hd).trans (if_neg hlive)

end

/-- What an attempt to dispose several channels comes to. Those that were disposed before are passed
over. -/
def attemptAll (disposed : List Nat) (live : Nat) (ids : List Nat) : Outcome × List Event :=
  match ids.filter (· ∉ disposed) with
  | [] => (.done, [])
  | id :: rest =>
    if 0 < live then (.fault (.disposeWhileInUse id live), [])
    else (.done, (id :: rest).map .disposed)

/-- A record in hand is disposed, or dropped, as the history has it. -/
theorem Kept.dispose_cases {f : Filed String} (h : s.Kept key history (f :: hand) 0)
    (hlog : s.log = []) :
    (∃ fault, f.dispose s.books = .error fault ∧
      attempt (history.filterMap Event.disposed?) (handleCount s.crews) f.record.id [] =
        (.fault fault, []) ∧
      attempt (history.filterMap Event.disposed?) (handleCount s.crews) f.record.id
        [.warning (.disposeWhileInUse f.record.id (handleCount s.crews))] =
          (.fault fault, (f.drop s.books).2)) ∨
    ∃ books, f.dispose s.books = .ok (f.marked, books) ∧
      ∀ refused, attempt (history.filterMap Event.disposed?) (handleCount s.crews) f.record.id
        refused = (.done, [.disposed f.record.id]) := by
  have hf := h.filed f List.mem_cons_self
  have htally := h.tally
  subst hf
  rw [hlog, List.append_nil, Nat.zero_add] at htally
  have hmarked := htally.disposed_iff List.mem_cons_self
  have hdispose := htally.filed_dispose
  have hdrop : (f.drop s.books).2 = (f.record.drop (s.books.ledger f.key)).2 := rfl
  by_cases hd : f.record.disposed = true
  · rw [if_pos hd] at hdispose
    rw [Record.drop, if_pos hd] at hdrop
    have hm := hmarked.mp hd
    exact .inl ⟨_, hdispose, attempt_of_mem hm, hdrop ▸ attempt_of_mem hm⟩
  · have hm := mt hmarked.mpr hd
    rw [if_neg hd] at hdispose
    rw [Record.drop_snd (Bool.not_eq_true _ ▸ hd), Record.release, htally.liveThreads_eq] at hdrop
    by_cases hlive : 0 < handleCount s.crews
    · rw [if_pos hlive] at hdispose
      rw [if_neg (by omega)] at hdrop
      exact .inl ⟨_, hdispose, attempt_of_live hm hlive, hdrop ▸ attempt_of_live hm hlive⟩
    · rw [if_neg hlive] at hdispose
      exact .inr ⟨_, hdispose, fun _ => attempt_of_quiet hm hlive⟩

theorem Reaches.disposeRecord_answer (h : Reaches key history s) {f : Filed String}
    (hfind : s.records.find? name = some f) :
    ((s.act key (.disposeRecord name) host).1.outcome,
        (s.act key (.disposeRecord name) host).2.log) =
      attempt (history.filterMap Event.disposed?) (handleCount s.crews) f.record.id [] := by
  have hready : (s.ready key).records.find? name = some f := hfind
  rw [act_log, act_reply, perform, disposeRecord, hready]
  simp only
  obtain ⟨fault, hdispose, hanswer, -⟩ | ⟨books, hdispose, hanswer⟩ :=
    (h.ready.take_record hready).dispose_cases rfl
  · split
    next hok => cases hdispose.symm.trans hok
    next herror => cases hdispose.symm.trans herror; exact hanswer.symm
  · split
    next hok => cases hdispose.symm.trans hok; exact (hanswer []).symm
    next herror => cases hdispose.symm.trans herror

/-- A channel that cannot be disposed is dropped, which is logged besides. -/
theorem Reaches.dispose_answer (h : Reaches key history s) {w : Whole}
    (hfind : s.wholes.find? name = some w) :
    ((s.act key (.dispose name) host).1.outcome, (s.act key (.dispose name) host).2.log) =
      attempt (history.filterMap Event.disposed?) (handleCount s.crews) w.filed.record.id
        [.warning (.disposeWhileInUse w.filed.record.id (handleCount s.crews))] := by
  have hready : (s.ready key).wholes.find? name = some w := hfind
  rw [act_log, act_reply, perform, dispose, hready]
  simp only
  obtain ⟨fault, hdispose, -, hanswer⟩ | ⟨books, hdispose, hanswer⟩ :=
    (h.ready.take_whole hready).dispose_cases rfl
  · split
    next hok => cases hdispose.symm.trans hok
    next herror => cases hdispose.symm.trans herror; exact hanswer.symm
  · split
    next hok => cases hdispose.symm.trans hok; exact (hanswer _).symm
    next herror => cases hdispose.symm.trans herror

/-- The channels of a set that were not disposed before. -/
theorem Kept.pending_set {fs : List (Filed String)} (h : s.Kept key history (fs ++ hand) 0)
    (hlog : s.log = []) : pending (fs.map Filed.record) =
      (fs.map fun f => f.record.id).filter (· ∉ history.filterMap Event.disposed?) := by
  have htally := h.tally
  rw [hlog, List.append_nil] at htally
  rw [pending, List.filter_map, List.filter_map, List.map_map]
  refine congrArg (List.map _) (List.filter_congr fun f hf => ?_)
  have hmem : f.record ∈ (fs ++ hand ++ s.held).map Filed.record :=
    List.mem_map_of_mem (List.mem_append_left _ (List.mem_append_left _ hf))
  show (!f.record.disposed) = decide (f.record.id ∉ history.filterMap Event.disposed?)
  rw [Bool.eq_iff_iff, decide_eq_true_iff, ← htally.disposed_iff hmem]
  simp

theorem head?_pending (fs : List (Filed String)) : (pending (fs.map Filed.record)).head? =
    (fs.find? fun f => !f.record.disposed).map fun f => f.record.id := by
  rw [pending, List.filter_map, List.map_map, List.head?_map, List.head?_filter]
  rfl

theorem Reaches.disposeSet_answer (h : Reaches key history s) {fs : List (Filed String)}
    (hfind : s.sets.find? name = some fs) :
    ((s.act key (.disposeSet name) host).1.outcome,
        (s.act key (.disposeSet name) host).2.log) =
      attemptAll (history.filterMap Event.disposed?) (handleCount s.crews)
        (fs.map fun f => f.record.id) := by
  have hready : (s.ready key).sets.find? name = some fs := hfind
  have htaken := h.ready.take_set hready
  have hkey : ∀ f ∈ fs, f.key = key := htaken.keyed
  have hlive : ((s.ready key).books.ledger key).liveThreads = 0 + handleCount s.crews :=
    htaken.tally.liveThreads_eq
  have hhead := head?_pending fs
  rw [attemptAll, ← htaken.pending_set rfl, act_log, act_reply, perform, disposeSet, hready]
  cases hcount : handleCount s.crews with
  | zero =>
    rw [hcount] at hlive
    obtain ⟨hfault, -, hevents⟩ := Tally.disposeAll_of_quiet hlive hkey
    simp only [hfault]
    refine (congrArg (Prod.mk _) (hevents : _ = _)).trans ?_
    cases pending (fs.map Filed.record) <;> rfl
  | succ live =>
    rw [hcount, Nat.zero_add] at hlive
    simp only [Tally.disposeAll_of_live hlive hkey]
    cases hpending : pending (fs.map Filed.record) with
    | nil =>
      rw [hpending] at hhead
      rw [Option.map_eq_none_iff.mp hhead.symm]
      rfl
    | cons id rest =>
      rw [hpending] at hhead
      obtain ⟨f, hf, rfl⟩ := Option.map_eq_some_iff.mp hhead.symm
      rw [hf]
      rfl

/-! ## Creating channels -/

/-- A channel that can be created gets the next number. -/
theorem Reaches.create_answer (h : Reaches key history s) (name : String) (capacity : Capacity) :
    (s.act key (.create name capacity.val) host).1 =
        ⟨.observed, [.id ((history.filterMap Event.created?).length + 1), .capacity capacity.val,
          .occupancy 0]⟩ ∧
      (s.act key (.create name capacity.val) host).2.log.head? =
        some (.created ((history.filterMap Event.created?).length + 1) capacity.val) := by
  have hcount : (history.filterMap Event.created?).length =
      ((s.ready key).books.ledger key).channelsCreated := by
    rw [h.tally.created, List.length_range', ready_ledger]
  rw [hcount, act_log, act_reply, perform, create, capacity.ofNat?_val]
  refine ⟨rfl, ?_⟩
  -- A channel that had the name is dropped only after the new one is logged.
  simp only
  cases (s.ready key).wholes.find? name <;> rfl

/-- No channel has another capacity. -/
theorem create_refused {capacity : Nat} (hcapacity : ¬ (1 ≤ capacity ∧ capacity ≤ maxCapacity)) :
    (s.act key (.create name capacity) host).1 = ⟨.fault (.invalidCapacity capacity), []⟩ ∧
      (s.act key (.create name capacity) host).2.log = [] := by
  have herror : Capacity.ofNat? capacity = .error (.invalidCapacity capacity) := dif_neg hcapacity
  rw [act_log, act_reply, perform, create, herror]
  exact ⟨rfl, rfl⟩

/-! ## The tally of a history -/

/-- The ledger named `key` as the history and the objects of the session tell it. -/
structure Accounted (key : String) (history : List Event) (s : Session) : Prop where
  /-- Channels are numbered from one on, in the order in which they are created. -/
  created : history.filterMap Event.created? =
    List.range' 1 (s.books.ledger key).channelsCreated
  disposed : (history.filterMap Event.disposed?).length = (s.books.ledger key).channelsDisposed
  once : (history.filterMap Event.disposed?).Nodup
  disposed_le : (s.books.ledger key).channelsDisposed ≤ (s.books.ledger key).channelsCreated
  marked : ∀ f ∈ s.held, f.record.disposed = true ↔
    f.record.id ∈ history.filterMap Event.disposed?
  joined_le : (s.books.ledger key).threadsJoined ≤ (s.books.ledger key).threadsSpawned
  threads : (s.books.ledger key).threadsSpawned - (s.books.ledger key).threadsJoined =
    handleCount s.crews
  /-- No thread is waited for, no record is left to be disposed, and none was dropped before it
  could be. -/
  balanced : (s.books.ledger key).snapshot.isBalanced = true ↔
    handleCount s.crews = 0 ∧ (∀ f ∈ s.held, f.record.disposed = true) ∧
      history.filterMap Event.lost? = []

/-- What the session answers when channels are created and disposed, and what it logs besides. -/
structure Answers (key : String) (history : List Event) (s : Session) : Prop where
  create : ∀ (host : Host) (name : String) (capacity : Capacity),
    (s.act key (.create name capacity.val) host).1 =
        ⟨.observed, [.id ((history.filterMap Event.created?).length + 1), .capacity capacity.val,
          .occupancy 0]⟩ ∧
      (s.act key (.create name capacity.val) host).2.log.head? =
        some (.created ((history.filterMap Event.created?).length + 1) capacity.val)
  refuse : ∀ (host : Host) (name : String) (capacity : Nat),
    ¬ (1 ≤ capacity ∧ capacity ≤ maxCapacity) →
    (s.act key (.create name capacity) host).1 = ⟨.fault (.invalidCapacity capacity), []⟩ ∧
      (s.act key (.create name capacity) host).2.log = []
  record : ∀ (host : Host) name f, s.records.find? name = some f →
    ((s.act key (.disposeRecord name) host).1.outcome,
        (s.act key (.disposeRecord name) host).2.log) =
      attempt (history.filterMap Event.disposed?) (handleCount s.crews) f.record.id []
  /-- A channel that cannot be disposed is lost. -/
  whole : ∀ (host : Host) name w, s.wholes.find? name = some w →
    ((s.act key (.dispose name) host).1.outcome, (s.act key (.dispose name) host).2.log) =
      attempt (history.filterMap Event.disposed?) (handleCount s.crews) w.filed.record.id
        [.warning (.disposeWhileInUse w.filed.record.id (handleCount s.crews))]
  set : ∀ (host : Host) name fs, s.sets.find? name = some fs →
    ((s.act key (.disposeSet name) host).1.outcome,
        (s.act key (.disposeSet name) host).2.log) =
      attemptAll (history.filterMap Event.disposed?) (handleCount s.crews)
        (fs.map fun f => f.record.id)

theorem Reaches.accounted (h : Reaches key history s) : Accounted key history s where
  created := h.tally.created
  disposed := h.tally.disposed
  once := h.tally.nodup_disposed
  disposed_le := by
    have hcreated := h.tally.channelsCreated_eq
    omega
  marked f hf := h.tally.disposed_iff (List.mem_map_of_mem hf)
  joined_le := by
    have hthreads := h.tally.threads
    omega
  threads := h.tally.liveThreads_eq
  balanced := by
    rw [Ledger.snapshot_eq, h.tally.isBalanced_iff, List.forall_mem_map]

/-- **The tally of a session is kept through every history of actions on one ledger**, whatever
comes of the threads that are started: its counters say what was created, disposed, started and
joined, and what is answered when a channel is disposed depends on the history as it should. -/
theorem Reaches.keeps_tally (h : Reaches key history s) :
    Accounted key history s ∧ Answers key history s where
  left := h.accounted
  right :=
    { create := fun _ name capacity => h.create_answer name capacity
      refuse := fun _ _ _ hcapacity => create_refused hcapacity
      record := fun _ _ _ hfind => h.disposeRecord_answer hfind
      whole := fun _ _ _ hfind => h.dispose_answer hfind
      set := fun _ _ _ hfind => h.disposeSet_answer hfind }

/-- The history and the session that some actions lead to, each with what came of the threads that
it started. -/
def replay (key : String) (actions : List (Action × Host)) : List Event × Session :=
  actions.foldl
    (fun (history, s) (a, host) => (history ++ (s.act key a host).2.log, (s.act key a host).2))
    ([], {})

theorem reaches_replay (key : String) (actions : List (Action × Host)) :
    Reaches key (replay key actions).1 (replay key actions).2 := by
  induction actions using List.reverseRecOn with
  | nil => exact .start
  | append_singleton actions entry ih =>
    rw [replay, List.foldl_append]
    exact .act entry.1 entry.2 ih

/-- A channel is taken apart, and a thread is started in a crew, while two others of the same crew
cannot be. -/
def specimen : List (Action × Host) :=
  [(.create "a" 1, .usual), (.split "a", .usual), (.hire "crew" {}, .usual),
    (.spawn "crew" "early" .idle, fun _ _ _ => .refused), (.spawn "crew" "stage" .idle, .usual),
    (.spawn "crew" "late" .idle, fun _ _ _ => .unwound)]

/-- While the thread is waited for, the record cannot be disposed. -/
theorem Reaches.keeps_tally_specimen :
    Reaches "main" (replay "main" specimen).1 (replay "main" specimen).2 ∧
      ((replay "main" specimen).2.books.ledger "main").threadsSpawned = 1 ∧
      ((replay "main" specimen).2.books.ledger "main").snapshot.isBalanced = false ∧
      ((replay "main" specimen).2.act "main" (.disposeRecord "a")).1.outcome =
        .fault (.disposeWhileInUse 1 1) := by
  have h := reaches_replay "main" specimen
  obtain ⟨haccounted, hanswers⟩ := h.keeps_tally
  have hfind : (replay "main" specimen).2.records.find? "a" =
      some ⟨"main", { id := 1, capacity := 1 }⟩ := by
    decide +kernel
  have hdisposed : (replay "main" specimen).1.filterMap Event.disposed? = [] := by decide +kernel
  have hlive : handleCount (replay "main" specimen).2.crews = 1 := by decide +kernel
  have hrecord := hanswers.record .usual "a" _ hfind
  rw [hdisposed, hlive] at hrecord
  refine ⟨h, ?_, ?_, congrArg Prod.fst hrecord⟩
  · have hthreads := haccounted.threads
    have hjoined : ((replay "main" specimen).2.books.ledger "main").threadsJoined = 0 := by
      decide +kernel
    rwa [hlive, hjoined] at hthreads
  · rw [← Bool.not_eq_true, haccounted.balanced, hlive]
    exact fun hbalanced => absurd hbalanced.1 (by decide)

end Relay.Session

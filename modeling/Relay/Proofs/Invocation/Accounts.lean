import Relay.Proofs.Invocation.Sound

/-!
# The accounts of a run

A run that nobody disturbs keeps its accounts (`Plan.Accounts`): what it has put on the ledger goes
together with the threads in its crew and the records in its custody, and the ending that the caller
has settled on is the verdict of the plan.

* `Accounts.caller`, `Reaches.accounts`: every step keeps them, and they are kept in every run;
* `Reaches.ended`: so the plan and the ledger decide what a run leaves, and how it ends;
* `Reaches.settles_accounts`: the same on each of the ways out.
-/

namespace Relay

variable {α β ω : Type}

/-! ## Fresh records -/

section Record

variable {r : Record} {l : Ledger}

theorem Record.dispose_of_live (hr : r.disposed = false) (hl : l.liveThreads ≠ 0) :
    r.dispose l = .error (.disposeWhileInUse r.id l.liveThreads) := by
  rw [dispose, Ledger.snapshot_eq, if_neg (by rw [hr]; nofun)]
  exact if_pos (Nat.pos_of_ne_zero hl)

theorem Record.dispose_of_quiet (hr : r.disposed = false) (hl : l.liveThreads = 0) :
    r.dispose l = .ok ({ r with disposed := true }, l.bump .channelsDisposed) := by
  rw [dispose, Ledger.snapshot_eq, if_neg (by rw [hr]; nofun)]
  exact if_neg (by rw [hl]; exact Nat.lt_irrefl 0)

/-- A fresh record that is dropped counts as disposed unless threads are live. -/
theorem Record.drop_fst (hr : r.disposed = false) :
    (r.drop l).1 = if l.liveThreads = 0 then l.bump .channelsDisposed else l := by
  rw [drop, if_neg (by rw [hr]; nofun)]
  split <;> rename_i hd <;> split <;> rename_i hl
  · rw [dispose_of_quiet hr hl] at hd; cases hd; rfl
  · rw [dispose_of_live hr hl] at hd; cases hd
  · rw [dispose_of_quiet hr hl] at hd; cases hd
  · rfl

end Record

namespace Plan

variable {p : Plan α ω} {l₀ : Ledger}

/-- The record of the channel that was created after `i` others. -/
def fresh (p : Plan α ω) (l₀ : Ledger) (i : Nat) : Record :=
  { id := l₀.channelsCreated + i + 1, capacity := p.tuning.capacity.val }

/-- The records of `m` channels that were created after `n` others. -/
def filed (p : Plan α ω) (l₀ : Ledger) (n m : Nat) : List Record :=
  (List.range' n m).map (p.fresh l₀)

theorem filed_snoc (n m : Nat) : p.filed l₀ n (m + 1) = p.filed l₀ n m ++ [p.fresh l₀ (n + m)] := by
  simp only [filed, List.range'_concat, List.map_append, List.map_cons, List.map_nil, Nat.one_mul]

theorem of_filed_eq_cons {n m : Nat} {record : Record} {records : List Record}
    (h : p.filed l₀ n m = record :: records) :
    ∃ m', m = m' + 1 ∧ record = p.fresh l₀ n ∧ records = p.filed l₀ (n + 1) m' := by
  cases m with
  | zero => cases h
  | succ m =>
    rw [filed, List.range'_succ, List.map_cons] at h
    cases h
    exact ⟨m, rfl, rfl, rfl⟩

theorem of_filed_eq_nil {n m : Nat} (h : p.filed l₀ n m = []) : m = 0 := by
  cases m with
  | zero => rfl
  | succ m => rw [filed, List.range'_succ, List.map_cons] at h; cases h

end Plan

/-! ## The invariant -/

namespace Phase

/-- The channels that were created before the caller does this, behind `size` stages. -/
def created (p : Plan α ω) (size : Nat) {β : Type} : Phase α ω β → Nat
  | .opening => 0
  | .spawning _ _ _ => size + 2
  | .wiring _ | .sending | .closingFirst | .receiving | .closingLast _ | .joining _ _
  | .disposing _ _ => size + 1
  | .forsaking _ | .abandoning _ | .reaping _ _ | .dropping _ | .finished _ => p.channels

/-- The ending that the caller has settled on. -/
def settled? {β : Type} : Phase α ω β → Option (Ending ω)
  | .forsaking e | .abandoning e | .reaping e _ | .dropping e | .finished e => some e
  | .opening | .wiring _ | .spawning _ _ _ | .sending | .closingFirst | .receiving
  | .closingLast _ | .joining _ _ | .disposing _ _ => none

/-- `n` records may have been released before the caller does this: none before its teardown, only
those set apart while it disposes, and all of them in the end. -/
def Released (p : Plan α ω) (l₀ : Ledger) (n : Nat) {β : Type} : Phase α ω β → Prop
  | .disposing _ done => done.length = n ∧ (n ≠ 0 → l₀.liveThreads = 0)
  | .dropping _ => True
  | .finished _ => n = p.channels
  | .opening | .wiring _ | .spawning _ _ _ | .sending | .closingFirst | .receiving
  | .closingLast _ | .joining _ _ | .forsaking _ | .abandoning _ | .reaping _ _ => n = 0

end Phase

/-- A run from ledger `l₀` has its accounts in order with ledger `l`. -/
structure Plan.Accounts (p : Plan α ω) (l₀ l : Ledger) (c : Custody) (w : Wired α β)
    (phase : Phase α ω β) : Prop where
  spawned : l.threadsSpawned = l₀.threadsSpawned + w.size
  joined : l.threadsJoined + c.crew.length = l₀.threadsJoined + w.size
  created : l.channelsCreated = l₀.channelsCreated + phase.created p w.size
  records : ∃ n m, n + m = phase.created p w.size ∧ c.records = p.filed l₀ n m ∧
    l.channelsDisposed = l₀.channelsDisposed + (if l₀.liveThreads = 0 then n else 0) ∧
    phase.Released p l₀ n
  ending : ∀ e, phase.settled? = some e → e = p.verdict l₀

namespace Plan

variable {p : Plan α ω} {c c' : Custody} {l₀ l : Ledger} {w : Wired α β} {phase : Phase α ω β}

/-! ## Verdicts -/

theorem verdict_of_setback {stage : String} {o : SpawnOutcome}
    (h : p.setback? = some (stage, o)) : p.verdict l₀ = p.setbackEnding stage o := by
  rw [verdict, h]

theorem verdict_of_error {stage : String} (h : p.setback? = none)
    (heval : p.pipeline.chain.eval p.tuning.threadName p.input = .error stage) :
    p.verdict l₀ = .failed ⟨[], .stagePanicked stage⟩ := by
  rw [verdict, h, heval]

theorem verdict_of_ok {value : ω} (h : p.setback? = none)
    (heval : p.pipeline.chain.eval p.tuning.threadName p.input = .ok value) :
    p.verdict l₀ = if l₀.liveThreads = 0 then .returned value
      else .failed ⟨[], .disposeWhileInUse (l₀.channelsCreated + 1) l₀.liveThreads⟩ := by
  rw [verdict, h, heval]

theorem Complete.channels {w : Wired α ω} (h : p.Complete w) : p.channels = w.size + 1 := by
  rw [channels_of_launched h.setback, h.started]

/-- What the caller has to report when it has joined all threads. -/
theorem Complete.fault {w : Wired α ω} {s : Supply ω} {h : List Deed} {fault : Option Fault}
    (hc : p.Complete w) (hf : Flow p.tuning.threadName p.input .sent w s h)
    (hj : c.Joined w fault) (hcrew : c.crew = []) :
    fault = match p.pipeline.chain.eval p.tuning.threadName p.input with
      | .ok _ => none
      | .error stage => some (.stagePanicked stage) :=
  (hj.all hcrew).2.trans (hc.firstPanic hf (hj.all hcrew).1)

/-! ## Steps -/

namespace Accounts

/-- Once its threads are joined, a run sees the live threads of others only. -/
theorem live (h : p.Accounts l₀ l c w phase) (hcrew : c.crew = []) :
    l.liveThreads = l₀.liveThreads := by
  have hj := h.joined
  rw [hcrew, List.length_nil] at hj
  rw [Ledger.liveThreads, h.spawned, Ledger.liveThreads]
  omega

/-- A step that concerns neither the ledger nor what is owed to it. -/
theorem pass {β' : Type} {w' : Wired α β'} {phase' : Phase α ω β'}
    (h : p.Accounts l₀ l c w phase) (hsize : w'.size = w.size) (hcrew : c'.crew = c.crew)
    (hrecords : c'.records = c.records)
    (hcreated : phase'.created p w.size = phase.created p w.size)
    (hreleased : ∀ n, phase.Released p l₀ n → phase'.Released p l₀ n)
    (hending : ∀ e, phase'.settled? = some e → e = p.verdict l₀) :
    p.Accounts l₀ l c' w' phase' := by
  obtain ⟨n, m, hnm, hfiled, hdisposed, hn⟩ := h.records
  refine ⟨hsize ▸ h.spawned, hsize ▸ hcrew ▸ h.joined, ?_, ⟨n, m, ?_, ?_, hdisposed, ?_⟩, hending⟩
  · rw [hsize, hcreated]; exact h.created
  · rw [hsize, hcreated]; exact hnm
  · rw [hrecords]; exact hfiled
  · exact hreleased n hn

/-- A channel is created and its record is filed. -/
theorem file {phase' : Phase α ω β} (h : p.Accounts l₀ l c w phase)
    (hcreated : phase'.created p w.size = phase.created p w.size + 1)
    (hreleased : ∀ n, phase.Released p l₀ n → phase'.Released p l₀ n)
    (hending : ∀ e, phase'.settled? = some e → e = p.verdict l₀) :
    p.Accounts l₀ (Invocation.acquire p c l).2 (Invocation.acquire p c l).1 w phase' := by
  obtain ⟨n, m, hnm, hfiled, hdisposed, hn⟩ := h.records
  have hid : l.channelsCreated = l₀.channelsCreated + (n + m) := hnm ▸ h.created
  refine ⟨h.spawned, h.joined, ?_, ⟨n, m + 1, ?_, ?_, hdisposed, hreleased n hn⟩, hending⟩
  · show l.channelsCreated + 1 = _
    rw [h.created, hcreated]; rfl
  · rw [hcreated, ← hnm]; rfl
  · show c.records ++ [⟨l.channelsCreated + 1, _, false⟩] = _
    rw [filed_snoc, hfiled, hid]; rfl

/-- A thread is joined. -/
theorem join {phase' : Phase α ω β} {hd : Handle} {crew : List Handle} {events : List Event}
    (h : p.Accounts l₀ l c w phase) (hcrew : c.crew = hd :: crew)
    (hcreated : phase'.created p w.size = phase.created p w.size)
    (hreleased : ∀ n, phase.Released p l₀ n → phase'.Released p l₀ n)
    (hending : ∀ e, phase'.settled? = some e → e = p.verdict l₀) :
    p.Accounts l₀ (l.bump .threadsJoined) ({ c with crew }.note events) w phase' := by
  obtain ⟨n, m, hnm, hfiled, hdisposed, hn⟩ := h.records
  have hj := h.joined
  rw [hcrew, List.length_cons] at hj
  refine ⟨h.spawned, ?_, hcreated ▸ h.created, ⟨n, m, hcreated ▸ hnm, hfiled, hdisposed,
    hreleased n hn⟩, hending⟩
  show l.threadsJoined + 1 + crew.length = _
  omega

/-- The next record that is left to release belongs to a channel that was not disposed yet. -/
theorem next {record : Record} {records : List Record} (h : p.Accounts l₀ l c w phase)
    (hrecords : c.records = record :: records) :
    ∃ n, record = p.fresh l₀ n ∧ phase.Released p l₀ n := by
  obtain ⟨n, m, -, hfiled, -, hn⟩ := h.records
  obtain ⟨-, -, hr, -⟩ := of_filed_eq_cons (hfiled ▸ hrecords)
  exact ⟨n, hr, hn⟩

/-- The next record is released, and counts as disposed unless threads are live. -/
theorem release {phase' : Phase α ω β} {record : Record} {records : List Record}
    {events : List Event} {l' : Ledger} (h : p.Accounts l₀ l c w phase)
    (hrecords : c.records = record :: records)
    (hl' : l' = if l₀.liveThreads = 0 then l.bump .channelsDisposed else l)
    (hcreated : phase'.created p w.size = phase.created p w.size)
    (hreleased : ∀ n, phase.Released p l₀ n → phase'.Released p l₀ (n + 1))
    (hending : ∀ e, phase'.settled? = some e → e = p.verdict l₀) :
    p.Accounts l₀ l' ({ c with records }.note events) w phase' := by
  obtain ⟨n, m, hnm, hfiled, hdisposed, hn⟩ := h.records
  obtain ⟨m, rfl, -, hrest⟩ := of_filed_eq_cons (hfiled ▸ hrecords)
  have hcount : n + 1 + m = phase'.created p w.size := by rw [hcreated, ← hnm]; omega
  subst hl'
  by_cases hlive : l₀.liveThreads = 0
  · rw [if_pos hlive] at hdisposed ⊢
    refine ⟨h.spawned, h.joined, hcreated ▸ h.created, ?_, hending⟩
    refine ⟨n + 1, m, hcount, hrest, ?_, hreleased n hn⟩
    show l.channelsDisposed + 1 = _
    rw [hdisposed, if_pos hlive]; rfl
  · rw [if_neg hlive] at hdisposed ⊢
    refine ⟨h.spawned, h.joined, hcreated ▸ h.created, ?_, hending⟩
    refine ⟨n + 1, m, hcount, hrest, ?_, hreleased n hn⟩
    rw [hdisposed, if_neg hlive]

/-- The caller is done with the records once none is left. -/
theorem finish {ending : Ending ω} (h : p.Accounts l₀ l c w phase) (hrecords : c.records = [])
    (hcrew' : c'.crew = c.crew) (hrecords' : c'.records = c.records)
    (hcreated : phase.created p w.size = p.channels) (hending : ending = p.verdict l₀) :
    p.Accounts l₀ l c' w (.finished ending) := by
  obtain ⟨n, m, hnm, hfiled, hdisposed, -⟩ := h.records
  obtain rfl := of_filed_eq_nil (hfiled ▸ hrecords)
  have hn : n = p.channels := hnm.trans hcreated
  refine ⟨h.spawned, hcrew' ▸ h.joined, ?_, ⟨n, 0, hn, hrecords'.trans hrecords, hdisposed, hn⟩, ?_⟩
  · rw [h.created, hcreated]; rfl
  · rintro e ⟨⟩
    exact hending

end Accounts

/-- **Every step of the caller keeps the accounts in order.** -/
theorem Accounts.caller {feed : Feed} {s : Supply β} {h deeds : List Deed} {l' : Ledger}
    {v : Invocation α ω} (hacc : p.Accounts l₀ l c w phase)
    (hf : Flow p.tuning.threadName p.input feed w s h) (hat : p.At c w phase feed s h deeds)
    (hact : Invocation.Acts p l ⟨p, c, w, phase⟩ l' v) :
    p.Accounts l₀ l' v.custody v.wired v.phase := by
  cases hact with
  | opens =>
    cases hat with
    | opening hc hr => exact hacc.file rfl (fun _ h => h) nofun
  | wires => exact hacc.pass rfl rfl rfl rfl (fun _ h => h) nofun
  | adds => exact hacc.file rfl (fun _ h => h) nofun
  | starts ho =>
    obtain ⟨n, m, hnm, hrecords⟩ := hacc.records
    refine ⟨congrArg (· + 1) hacc.spawned, ?_, hacc.created, ⟨n, m, hnm, hrecords⟩, nofun⟩
    show l.threadsJoined + (c.crew ++ [_]).length = l₀.threadsJoined + (w.size + 1)
    have hj := hacc.joined
    rw [List.length_append, List.length_singleton]
    omega
  | fails ho hne =>
    cases hat with
    | spawning hl hc =>
      obtain ⟨hsetback, hstarted⟩ := hl.setback hc ho hne
      refine hacc.pass (Wired.size_setLast _ _) rfl rfl ?_ (fun _ h => h) ?_
      · show p.channels = w.size + 2
        rw [channels_of_setback hsetback, hstarted]
      · rintro e ⟨⟩
        rw [verdict_of_setback hsetback]
  | sends hsend => exact hacc.pass (Wired.size_mapFirst _ _) rfl rfl rfl (fun _ h => h) nofun
  | sendsNot hsend =>
    obtain ⟨first, hfirst⟩ := hat.sends hf
    rw [hfirst] at hsend
    cases hsend
  | closesFirst => exact hacc.pass (Wired.size_mapFirst _ _) rfl rfl rfl (fun _ h => h) nofun
  | receives => exact hacc.pass (Wired.size_setLast _ _) rfl rfl rfl (fun _ h => h) nofun
  | receivesNot => exact hacc.pass rfl rfl rfl rfl (fun _ h => h) nofun
  | closesLast => exact hacc.pass (Wired.size_setLast _ _) rfl rfl rfl (fun _ h => h) nofun
  | joins hcrew => exact hacc.join hcrew rfl (fun _ h => h) nofun
  | reports hcrew =>
    cases hat with
    | joining hj hc hy =>
      have hfault := hc.fault hf hj hcrew
      split at hfault <;> rename_i heval <;> cases hfault
      refine hacc.pass rfl rfl rfl hc.channels (fun _ _ => trivial) ?_
      rintro e ⟨⟩
      rw [verdict_of_error hc.setback heval]
  | concludes hcrew =>
    refine hacc.pass rfl rfl rfl rfl ?_ nofun
    rintro n (rfl : n = 0)
    exact ⟨rfl, fun h => absurd rfl h⟩
  | misses hcrew =>
    cases hat with
    | joining hj hc hy =>
      -- Nothing came because a stage panicked, and that its thread tells when it is joined.
      cases hy with
      | nothing =>
        obtain ⟨stage, heval⟩ := hc.eval_of_dry hf
        have hfault := hc.fault hf hj hcrew
        rw [heval] at hfault
        cases hfault
  | disposes hrecords hdispose =>
    cases hat with
    | disposing hcrew hex hc heval =>
      obtain ⟨n, rfl, -⟩ := hacc.next hrecords
      by_cases hlive : l₀.liveThreads = 0
      · rw [Record.dispose_of_quiet rfl ((hacc.live hcrew).trans hlive)] at hdispose
        cases hdispose
        refine hacc.release hrecords (if_pos hlive).symm rfl ?_ nofun
        rintro n ⟨rfl, -⟩
        exact ⟨List.length_append, fun _ => hlive⟩
      · rw [Record.dispose_of_live rfl fun h => hlive ((hacc.live hcrew).symm.trans h)] at hdispose
        cases hdispose
  | @disposesNot _ _ _ done _ _ _ hrecords hdispose =>
    cases hat with
    | disposing hcrew hex hc heval =>
      obtain ⟨n, rfl, rfl, hquiet⟩ := hacc.next hrecords
      by_cases hlive : l₀.liveThreads = 0
      · rw [Record.dispose_of_quiet rfl ((hacc.live hcrew).trans hlive)] at hdispose
        cases hdispose
      · rw [Record.dispose_of_live rfl fun h => hlive ((hacc.live hcrew).symm.trans h)] at hdispose
        cases hdispose
        -- Disposing stops at the first record if it stops at all.
        have hdone : done = [] :=
          List.length_eq_zero_iff.mp (Decidable.by_contra fun h => hlive (hquiet h))
        subst hdone
        refine hacc.pass rfl rfl hrecords.symm hc.channels (fun _ _ => trivial) ?_
        rintro e ⟨⟩
        rw [verdict_of_ok hc.setback heval, if_neg hlive, hacc.live hcrew]; rfl
  | returns hrecords =>
    cases hat with
    | disposing hcrew hex hc heval =>
      obtain ⟨n, m, hnm, hfiled, -, -, hquiet⟩ := hacc.records
      obtain rfl := of_filed_eq_nil (hfiled ▸ hrecords)
      have hn : n = w.size + 1 := hnm
      refine hacc.finish hrecords rfl rfl hc.channels.symm ?_
      rw [verdict_of_ok hc.setback heval, if_pos (hquiet (by omega))]
  | forsakes => cases hat
  | abandons =>
    exact hacc.pass (Wired.size_mapFirst _ _) rfl rfl rfl (fun _ h => h) hacc.ending
  | reaps hcrew => exact hacc.join hcrew rfl (fun _ h => h) hacc.ending
  | reaped hcrew => exact hacc.pass rfl rfl rfl rfl (fun _ _ => trivial) hacc.ending
  | drops hrecords =>
    cases hat with
    | dropping ht =>
      obtain ⟨n, rfl, -⟩ := hacc.next hrecords
      refine hacc.release hrecords ?_ rfl (fun _ _ => trivial) hacc.ending
      rw [Record.drop_fst rfl, hacc.live ht.crew]
  | ends hrecords => exact hacc.finish hrecords rfl rfl rfl (hacc.ending _ rfl)

theorem Accounts.start : p.Accounts l₀ l₀ p.start.custody p.start.wired p.start.phase :=
  ⟨rfl, rfl, rfl, ⟨0, 0, rfl, rfl, by split <;> rfl, rfl⟩, nofun⟩

/-- **Every run keeps its accounts in order.** -/
theorem Reaches.accounts {schedule : List Move} {deeds : List Deed} {v : Invocation α ω}
    (h : p.Reaches l₀ schedule deeds l v) : p.Accounts l₀ l v.custody v.wired v.phase := by
  induction h with
  | start => exact .start
  | step move hr hstep ih =>
    obtain ⟨rfl, feed, s, own, hf, hat⟩ := hr.sound
    rcases Invocation.step_cases hstep with ⟨rfl, hact⟩ | ⟨i, w, rfl, hw, rfl, rfl⟩
    · exact ih.caller hf hat hact
    · exact ih.pass (Wired.size_step hw) rfl rfl rfl (fun _ h => h) ih.ending

/-! ## The end of a run -/

/-- Whoever has ended has settled on an ending, has no thread left to join and no record to
release. -/
theorem Accounts.of_ended {feed : Feed} {s : Supply β} {h deeds : List Deed} {e : Ending ω}
    (hacc : p.Accounts l₀ l c w phase) (hat : p.At c w phase feed s h deeds)
    (hend : (⟨p, c, w, phase⟩ : Invocation α ω).ending? = some e) :
    l = l₀.after p.channels p.started ∧ e = p.verdict l₀ := by
  cases hat with
  | finished ht =>
    cases hend
    obtain ⟨n, m, -, -, hdisposed, hn⟩ := hacc.records
    obtain rfl : n = p.channels := hn
    have hcreated : l.channelsCreated = l₀.channelsCreated + p.channels := hacc.created
    have hspawned := hacc.spawned
    have hjoined := hacc.joined
    rw [ht.crew, List.length_nil, Nat.add_zero] at hjoined
    rw [← ht.started] at hspawned hjoined
    refine ⟨?_, hacc.ending _ rfl⟩
    obtain ⟨created, disposed, spawned, joined⟩ := l
    simp only at hcreated hdisposed hspawned hjoined
    rw [Ledger.after, hcreated, hdisposed, hspawned, hjoined]
  | _ => cases hend

theorem Reaches.ended {schedule : List Move} {deeds : List Deed} {v : Invocation α ω}
    {e : Ending ω} (h : p.Reaches l₀ schedule deeds l v) (hend : v.ending? = some e) :
    l = l₀.after p.channels p.started ∧ e = p.verdict l₀ := by
  obtain ⟨rfl, feed, s, own, hf, hat⟩ := h.sound
  exact h.accounts.of_ended hat hend

/-- What a run that began with ledger `l₀` leaves on it, and its ending, on each of the ways out:
all stages gave a value, one panicked, or a thread was refused or unwound the caller. -/
inductive Settles (p : Plan α ω) (l₀ : Ledger) : Ledger → Ending ω → Prop where
  | worked {value : ω} : p.Starts →
    p.pipeline.chain.eval p.tuning.threadName p.input = .ok value →
    p.Settles l₀ (l₀.after (p.pipeline.length + 1) p.pipeline.length)
      (if l₀.liveThreads = 0 then .returned value
        else .failed ⟨[], .disposeWhileInUse (l₀.channelsCreated + 1) l₀.liveThreads⟩)
  | panicked {stage : String} : p.Starts →
    p.pipeline.chain.eval p.tuning.threadName p.input = .error stage →
    p.Settles l₀ (l₀.after (p.pipeline.length + 1) p.pipeline.length)
      (.failed ⟨[], .stagePanicked stage⟩)
  | refused {m : Nat} {stage : String} : p.StartsUpTo m →
    p.pipeline.stageNames[m]? = some stage →
    p.host (m + 1) (p.tuning.threadName stage) = .refused →
    p.Settles l₀ (l₀.after (m + 2) m) (.failed (p.spawnFailure stage))
  | unwound {m : Nat} {stage : String} : p.StartsUpTo m →
    p.pipeline.stageNames[m]? = some stage →
    p.host (m + 1) (p.tuning.threadName stage) = .unwound →
    p.Settles l₀ (l₀.after (m + 2) m) .unwound

theorem settles_verdict (p : Plan α ω) (l₀ : Ledger) :
    p.Settles l₀ (l₀.after p.channels p.started) (p.verdict l₀) := by
  cases hsetback : p.setback? with
  | none =>
    obtain ⟨hstarts, hstarted⟩ := starts_of_setback? hsetback
    rw [channels_of_launched hsetback, hstarted]
    cases heval : p.pipeline.chain.eval p.tuning.threadName p.input with
    | ok value => rw [verdict_of_ok hsetback heval]; exact .worked hstarts heval
    | error stage => rw [verdict_of_error hsetback heval]; exact .panicked hstarts heval
  | some x =>
    obtain ⟨stage, o⟩ := x
    obtain ⟨hstarts, hname, ho, hne⟩ := of_setback? hsetback
    rw [channels_of_setback hsetback, verdict_of_setback hsetback]
    cases o with
    | started => exact absurd rfl hne
    | refused => exact .refused hstarts hname ho
    | unwound => exact .unwound hstarts hname ho

end Plan

end Relay

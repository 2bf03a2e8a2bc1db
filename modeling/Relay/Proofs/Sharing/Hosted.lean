import Relay.Proofs.Sharing.Guest

/-!
# What a run that works does beside others

The accounts of a run whose threads can be started and whose stages do not panic, on a ledger that
others use as well (`Plan.Hosted`). Its log agrees with its threads, and every channel that it
created is released in turn; what others do has a say only in whether it sees live threads when it
looks at the ledger.

* `Hosted.caller`, `Hosted.step`: every step keeps the accounts, and the run fails only at threads
  that it has seen;
* `Hosted.settles`: it settles on a failure only while it looks at the ledger;
* `Works.torn_down`: and by then its own threads are joined.
-/

namespace Relay

variable {α β ω : Type}

/-- All threads of the plan can be started, and its stages make `value` of the input. -/
structure Plan.Works (p : Plan α ω) (value : ω) : Prop where
  starts : p.Starts
  eval : p.pipeline.chain.eval p.tuning.threadName p.input = .ok value

/-- A run failed because it saw live threads, at most `n`, when it was to dispose one of the
channels of its log. -/
def Ending.Disturbed (n : Nat) (log : List Event) (e : Ending ω) : Prop :=
  ∃ channel live, e = .failed ⟨[], .disposeWhileInUse channel live⟩ ∧
    channel ∈ log.filterMap Event.created? ∧ 0 < live ∧ live ≤ n

theorem Ending.Disturbed.append {n : Nat} {log : List Event} {e : Ending ω} (h : e.Disturbed n log)
    (events : List Event) : e.Disturbed n (log ++ events) := by
  obtain ⟨channel, live, rfl, hm, hlive⟩ := h
  exact ⟨channel, live, rfl, List.filterMap_append .. ▸ List.mem_append_left _ hm, hlive⟩

/-- No record in custody is disposed, and no channel was lost. -/
def Custody.Whole (c : Custody) : Prop :=
  (∀ r ∈ c.records, r.disposed = false) ∧ c.log.filterMap Event.lost? = []

/-- Something is logged, but not that a channel is lost. -/
theorem Custody.Whole.note {c : Custody} {crew : List Handle} {e : Event} (h : c.Whole)
    (hlost : e.lost? = none) : ({ c with crew }.note [e]).Whole :=
  ⟨h.1, (Tally.filterMap_concat_none hlost).trans h.2⟩

/-- What a caller whose stages make `value`, and who sees at most `n` live threads of others, has in
custody and in its log when it is about to do this. -/
def Phase.InOrder (value : ω) (n : Nat) (c : Custody) : Phase α ω β → Prop
  | .disposing _ done => c.Whole ∧ ∀ r ∈ done, r.disposed = true
  | .dropping e => e.Disturbed n c.log
  | .finished e => c.records = [] ∧
    (e = .returned value ∧ c.log.filterMap Event.lost? = [] ∨ e.Disturbed n c.log)
  | .forsaking _ | .abandoning _ | .reaping _ _ => False
  | _ => c.Whole

/-- The log of a guest agrees with its threads and its channels. -/
structure Plan.Hosted (p : Plan α ω) (value : ω) (n : Nat) (c : Custody) (w : Wired α β)
    (phase : Phase α ω β) : Prop where
  spawned : (Ledger.ofLog c.log).threadsSpawned = w.size
  joined : (Ledger.ofLog c.log).threadsJoined + c.crew.length = w.size
  created : (Ledger.ofLog c.log).channelsCreated = phase.created p w.size
  released : c.log.filterMap Event.released? ++ pending c.records = c.log.filterMap Event.created?
  inOrder : phase.InOrder value n c

namespace Plan

variable {p : Plan α ω} {value : ω} {n : Nat} {c c' : Custody} {w : Wired α β}
  {phase phase' : Phase α ω β} {l l' : Ledger}

theorem Works.setback? (h : p.Works value) : p.setback? = none :=
  setback?_of_starts h.starts

theorem Works.started (h : p.Works value) : p.started = p.pipeline.length :=
  (starts_of_setback? h.setback?).2

theorem Works.channels (h : p.Works value) : p.channels = p.pipeline.length + 1 := by
  rw [channels_of_launched h.setback?, h.started]

/-- Nobody gives up in a run that works. -/
theorem Works.not_givenUp (h : p.Works value) : ¬p.GivenUp w := fun hg => by
  have hsome := hg.2
  rw [h.setback?] at hsome
  cases hsome

theorem Works.complete {w : Wired α ω} (h : p.Works value) (hc : p.Complete w) :
    w.size = p.pipeline.length :=
  hc.started.symm.trans h.started

/-- No fault comes up while the threads are joined. -/
theorem Works.fault {w : Wired α ω} {s : Supply ω} {h : List Deed} {fault : Option Fault}
    (hw : p.Works value) (hc : p.Complete w) (hf : Flow p.tuning.threadName p.input .sent w s h)
    (hj : c.Joined w fault) (hcrew : c.crew = []) : fault = none := by
  have hfault := hc.fault hf hj hcrew
  rwa [hw.eval] at hfault

/-! ## Steps -/

namespace Hosted

/-- A step that concerns neither the log nor custody. -/
theorem pass {β' : Type} {w' : Wired α β'} {phase' : Phase α ω β'}
    (h : p.Hosted value n c w phase) (hsize : w'.size = w.size)
    (hcreated : phase'.created p w.size = phase.created p w.size)
    (hin : phase'.InOrder value n c) : p.Hosted value n c w' phase' where
  spawned := hsize ▸ h.spawned
  joined := hsize ▸ h.joined
  created := by rw [hsize, hcreated]; exact h.created
  released := h.released
  inOrder := hin

/-- A channel is created. -/
theorem file (h : p.Hosted value n c w phase)
    (hcreated : phase'.created p w.size = phase.created p w.size + 1) (hc : c.Whole)
    (hin : (Invocation.acquire p c l).1.Whole →
      phase'.InOrder value n (Invocation.acquire p c l).1) :
    p.Hosted value n (Invocation.acquire p c l).1 w phase' := by
  let e : Event := .created (l.channelsCreated + 1) p.tuning.capacity.val
  have hlog : (Invocation.acquire p c l).1.log = c.log ++ [e] := rfl
  have hcount : Ledger.ofLog (c.log ++ [e]) = (Ledger.ofLog c.log).bump .channelsCreated :=
    Ledger.ofLog_bump rfl
  have hreleased : e.released? = none := rfl
  have hlost : e.lost? = none := rfl
  have hid : e.created? = some (l.channelsCreated + 1) := rfl
  refine ⟨?_, ?_, ?_, ?_, hin ⟨fun r hr => ?_, ?_⟩⟩
  · rw [hlog, hcount]; exact h.spawned
  · rw [hlog, hcount]; exact h.joined
  · rw [hlog, hcount, hcreated, ← h.created]; rfl
  · rw [hlog, Tally.filterMap_concat_none hreleased, Tally.filterMap_concat_some _ _ hid,
      ← h.released, List.append_assoc]
    simp [Invocation.acquire, Custody.file, Custody.note, pending, Record.create]
  · rcases List.mem_append.mp hr with hr | hr
    · exact hc.1 r hr
    · rw [List.mem_singleton.mp hr]
  · rw [hlog, Tally.filterMap_concat_none hlost]
    exact hc.2

/-- Something is logged that concerns no channel. -/
theorem note {β' : Type} {w' : Wired α β'} {phase' : Phase α ω β'} {crew : List Handle} {e : Event}
    (h : p.Hosted value n c w phase) (hmade : e.created? = none) (hgone : e.released? = none)
    (hspawned : (Ledger.ofLog (c.log ++ [e])).threadsSpawned = w'.size)
    (hjoined : (Ledger.ofLog (c.log ++ [e])).threadsJoined + crew.length = w'.size)
    (hcreated : phase'.created p w'.size = phase.created p w.size)
    (hin : phase'.InOrder value n ({ c with crew }.note [e])) :
    p.Hosted value n ({ c with crew }.note [e]) w' phase' := by
  have hlog : ({ c with crew }.note [e]).log = c.log ++ [e] := rfl
  refine ⟨hspawned, hjoined, ?_, ?_, hin⟩
  · rw [hlog, Ledger.ofLog, Tally.filterMap_concat_none hmade, hcreated]; exact h.created
  · rw [hlog, Tally.filterMap_concat_none hmade, Tally.filterMap_concat_none hgone]
    exact h.released

/-- The next record is released. -/
theorem release {record : Record} {records : List Record} (h : p.Hosted value n c w phase)
    (hrecords : c.records = record :: records) (hr : record.disposed = false)
    (hcreated : phase'.created p w.size = phase.created p w.size)
    (hin : phase'.InOrder value n ({ c with records }.note [record.release l])) :
    p.Hosted value n ({ c with records }.note [record.release l]) w phase' := by
  have hviews : (record.release l).released? = some record.id ∧
      (record.release l).created? = none ∧ (record.release l).spawned? = none ∧
      (record.release l).joined? = none := by
    rw [Record.release]
    split <;> exact ⟨rfl, rfl, rfl, rfl⟩
  obtain ⟨hreleased, hmade, hspawned, hjoined⟩ := hviews
  have hlog : ({ c with records }.note [record.release l]).log = c.log ++ [record.release l] := rfl
  refine ⟨?_, ?_, ?_, ?_, hin⟩
  · rw [hlog, Ledger.ofLog, Tally.filterMap_concat_none hspawned]; exact h.spawned
  · rw [hlog, Ledger.ofLog, Tally.filterMap_concat_none hjoined]; exact h.joined
  · rw [hlog, Ledger.ofLog, Tally.filterMap_concat_none hmade, hcreated]; exact h.created
  · have hbefore := h.released
    rw [hrecords, Tally.pending_cons hr] at hbefore
    rw [hlog, Tally.filterMap_concat_some _ _ hreleased, Tally.filterMap_concat_none hmade,
      ← hbefore, List.append_assoc]
    rfl

/-- The channel of a record that is not disposed is one of the log. -/
theorem mem_created {record : Record} (h : p.Hosted value n c w phase) (hm : record ∈ c.records)
    (hr : record.disposed = false) : record.id ∈ c.log.filterMap Event.created? := by
  rw [← h.released]
  exact List.mem_append_right _ (List.mem_map_of_mem (List.mem_filter.mpr ⟨hm, by rw [hr]; rfl⟩))

end Hosted

theorem looks_of_disposing {w : Wired α ω} {v : ω} {done records : List Record} {record : Record}
    (hrecords : c.records = record :: records) (hr : record.disposed = false) :
    (⟨p, c, w, .disposing v done⟩ : Invocation α ω).looks = true := by
  simp only [Invocation.looks, hrecords, hr]; rfl

/-- **Every step of the caller keeps a guest hosted**, if it sees at most `n` live threads when it
looks at the ledger. -/
theorem Hosted.caller {feed : Feed} {s : Supply β} {h deeds : List Deed} {v : Invocation α ω}
    (hhosted : p.Hosted value n c w phase) (hw : p.Works value)
    (hf : Flow p.tuning.threadName p.input feed w s h) (hat : p.At c w phase feed s h deeds)
    (hact : Invocation.Acts p l ⟨p, c, w, phase⟩ l' v)
    (hseen : (⟨p, c, w, phase⟩ : Invocation α ω).looks = true → l.liveThreads ≤ n) :
    p.Hosted value n v.custody v.wired v.phase := by
  have hin := hhosted.inOrder
  cases hact with
  | opens =>
    cases hat with
    | opening hc hr => exact hhosted.file rfl hin id
  | wires =>
    refine hhosted.note rfl rfl ?_ ?_ rfl (Custody.Whole.note hin rfl)
    · rw [Ledger.ofLog_quiet rfl]; exact hhosted.spawned
    · rw [Ledger.ofLog_quiet rfl]; exact hhosted.joined
  | adds => exact hhosted.file rfl hin id
  | starts ho =>
    refine hhosted.note rfl rfl ?_ ?_ rfl (Custody.Whole.note hin rfl)
    · rw [Ledger.ofLog_bump (c := .threadsSpawned) rfl]
      exact congrArg (· + 1) hhosted.spawned
    · rw [Ledger.ofLog_bump (c := .threadsSpawned) rfl, List.length_append]
      exact congrArg (· + 1) hhosted.joined
  | fails ho hne =>
    cases hat with
    | spawning hl hc =>
      have hsetback := (hl.setback hc ho hne).1
      rw [hw.setback?] at hsetback
      cases hsetback
  | sends hsend => exact hhosted.pass (Wired.size_mapFirst _ _) rfl hin
  | sendsNot hsend =>
    obtain ⟨first, hfirst⟩ := hat.sends hf
    rw [hfirst] at hsend
    cases hsend
  | closesFirst => exact hhosted.pass (Wired.size_mapFirst _ _) rfl hin
  | receives => exact hhosted.pass (Wired.size_setLast _ _) rfl hin
  | receivesNot => exact hhosted.pass rfl rfl hin
  | closesLast => exact hhosted.pass (Wired.size_setLast _ _) rfl hin
  | joins hcrew =>
    have hjoined := hhosted.joined
    rw [hcrew, List.length_cons] at hjoined
    refine hhosted.note rfl rfl ?_ ?_ rfl (Custody.Whole.note hin rfl)
    · rw [Ledger.ofLog_bump (c := .threadsJoined) rfl]; exact hhosted.spawned
    · rw [Ledger.ofLog_bump (c := .threadsJoined) rfl, ← hjoined]
      exact Nat.add_right_comm _ 1 _
  | reports hcrew =>
    cases hat with
    | joining hj hc hy => cases hw.fault hc hf hj hcrew
  | concludes hcrew => exact hhosted.pass rfl rfl ⟨hin, nofun⟩
  | misses hcrew =>
    cases hat with
    | joining hj hc hy =>
      cases hy with
      | nothing =>
        obtain ⟨stage, heval⟩ := hc.eval_of_dry hf
        rw [hw.eval] at heval
        cases heval
  | @disposes _ _ _ _ done records record _ hrecords hdispose =>
    obtain ⟨⟨hfresh, hlost⟩, hdone⟩ := hin
    obtain ⟨hr, hlive, rfl, rfl⟩ := Record.of_dispose_ok hdispose
    have hevent : record.release l = .disposed record.id := if_pos hlive
    rw [← hevent]
    refine hhosted.release hrecords hr rfl ⟨⟨fun r hm => ?_, ?_⟩, fun r hm => ?_⟩
    · exact hfresh r (hrecords ▸ List.mem_cons_of_mem _ hm)
    · rw [hevent]
      exact (Tally.filterMap_concat_none rfl).trans hlost
    · rcases List.mem_append.mp hm with hm | hm
      · exact hdone r hm
      · rw [List.mem_singleton.mp hm]
  | @disposesNot _ _ _ done records record _ hrecords hdispose =>
    obtain ⟨⟨hfresh, hlost⟩, hdone⟩ := hin
    have hm : record ∈ c.records := hrecords ▸ List.mem_cons_self
    have hr := hfresh record hm
    obtain ⟨hlive, rfl⟩ := Record.of_dispose_error hr hdispose
    cases hat with
    | disposing hcrew hex hc heval =>
      refine ⟨hhosted.spawned, hhosted.joined, hhosted.created.trans hc.channels.symm, ?_, ?_⟩
      · -- The records that were set apart are disposed, and so not pending.
        have hpending : pending (done ++ record :: records) = pending c.records := by
          rw [hrecords, pending, List.filter_append, List.filter_eq_nil_iff.mpr, List.nil_append]
          · rfl
          · intro r hrm
            rw [hdone r hrm]; decide
        exact (congrArg (_ ++ ·) hpending).trans hhosted.released
      · exact ⟨_, _, rfl, hhosted.mem_created hm hr, Nat.pos_of_ne_zero hlive,
          hseen (looks_of_disposing hrecords hr)⟩
  | returns hrecords =>
    cases hat with
    | disposing hcrew hex hc heval =>
      rw [hw.eval] at heval
      cases heval
      obtain ⟨⟨-, hlost⟩, -⟩ := hin
      refine hhosted.note rfl rfl ?_ ?_ hc.channels ⟨hrecords, .inl ⟨rfl, ?_⟩⟩
      · rw [Ledger.ofLog_quiet rfl]; exact hhosted.spawned
      · rw [Ledger.ofLog_quiet rfl]; exact hhosted.joined
      · exact (Tally.filterMap_concat_none rfl).trans hlost
  | forsakes => cases hat
  | abandons | reaps | reaped => cases hin
  | @drops _ _ _ ending record records hrecords =>
    cases hr : record.disposed with
    | true =>
      have hreleased := hhosted.released
      rw [hrecords, Tally.pending_cons_of_disposed hr] at hreleased
      have hcustody : { c with records }.note (record.drop l).2 = { c with records } := by
        rw [Record.drop_of_disposed hr]
        exact congrArg (Custody.mk c.crew records) (List.append_nil c.log)
      show p.Hosted value n ({ c with records }.note (record.drop l).2) w (.dropping ending)
      rw [hcustody]
      exact ⟨hhosted.spawned, hhosted.joined, hhosted.created, hreleased, hin⟩
    | false =>
      rw [Record.drop_eq hr]
      exact hhosted.release hrecords hr rfl (Ending.Disturbed.append hin _)
  | ends hrecords =>
    exact hhosted.pass rfl rfl ⟨hrecords, .inr hin⟩

theorem Hosted.start : p.Hosted value n p.start.custody p.start.wired p.start.phase :=
  ⟨rfl, rfl, rfl, rfl, nofun, rfl⟩

theorem Hosted.step {v v' : Invocation α ω} {move : Move}
    (hhosted : p.Hosted value n v.custody v.wired v.phase) (hw : p.Works value)
    (hs : ∃ deeds, p.Sound deeds v) (hstep : v.step move l = some (l', v'))
    (hseen : move = .caller → v.looks = true → l.liveThreads ≤ n) :
    p.Hosted value n v'.custody v'.wired v'.phase := by
  obtain ⟨deeds, rfl, feed, s, own, hf, hat⟩ := hs
  rcases Invocation.step_cases hstep with ⟨rfl, hact⟩ | ⟨i, w, rfl, hw, rfl, rfl⟩
  · exact hhosted.caller hw hf hat hact (hseen rfl)
  · exact hhosted.pass (Wired.size_step hw) rfl hhosted.inOrder

/-! ## When it fails -/

/-- Who never saw a live thread of others has not failed. -/
theorem Hosted.not_failed (hhosted : p.Hosted value 0 c w phase) (error : RunError) :
    phase.settled? ≠ some (.failed error) := by
  have hcalm (e : Ending ω) : ¬e.Disturbed 0 c.log := by
    rintro ⟨channel, live, -, -, hpos, hle⟩
    omega
  have hin := hhosted.inOrder
  intro hfail
  cases phase with
  | dropping => exact hcalm _ hin
  | finished =>
    rcases hin.2 with ⟨rfl, -⟩ | hin
    · cases hfail
    · exact hcalm _ hin
  | forsaking | abandoning | reaping => exact hin
  | _ => cases hfail

/-- Who has not failed might have seen no live thread of others. -/
theorem Hosted.calm (hhosted : p.Hosted value n c w phase)
    (hfail : ∀ error, phase.settled? ≠ some (.failed error)) : p.Hosted value 0 c w phase := by
  have hin := hhosted.inOrder
  refine ⟨hhosted.spawned, hhosted.joined, hhosted.created, hhosted.released, ?_⟩
  cases phase with
  | dropping =>
    obtain ⟨channel, live, rfl, -⟩ := hin
    exact absurd rfl (hfail _)
  | finished =>
    refine ⟨hin.1, hin.2.imp_right ?_⟩
    rintro ⟨channel, live, rfl, -⟩
    exact absurd rfl (hfail _)
  | forsaking | abandoning | reaping => cases hin
  | _ => exact hin

/-- **A run that works settles on a failure only when it sees live threads.** -/
theorem Hosted.settles {v v' : Invocation α ω} {move : Move} {error : RunError}
    (hhosted : p.Hosted value n v.custody v.wired v.phase) (hw : p.Works value)
    (hs : ∃ deeds, p.Sound deeds v) (hstep : v.step move l = some (l', v'))
    (hfail : v'.phase.settled? = some (.failed error)) :
    (∃ error, v.phase.settled? = some (.failed error)) ∨
      move = .caller ∧ v.looks = true ∧ 0 < l.liveThreads := by
  by_contra hnot
  obtain ⟨hcalm, hquiet⟩ := not_or.mp hnot
  have hcalm' := hhosted.calm fun error h => hcalm ⟨error, h⟩
  refine (hcalm'.step hw hs hstep fun hmove hlook => ?_).not_failed error hfail
  exact Nat.le_of_not_lt fun hlive => hquiet ⟨hmove, hlook, hlive⟩

section

variable {feed : Feed} {s : Supply β} {h deeds : List Deed}

/-- No more threads are started than there are stages. -/
theorem Works.size_le (hw : p.Works value) (hat : p.At c w phase feed s h deeds) :
    w.size ≤ p.pipeline.length := by
  have hlength {γ : Type} {rest : Chain γ ω} {w : Wired α γ}
      (hc : w.chain.append rest = p.pipeline.chain) : w.size ≤ p.pipeline.length := by
    rw [Pipeline.length, ← hc, Chain.length_append, w.length_chain]
    exact Nat.le_add_right _ _
  cases hat with
  | opening => exact Nat.zero_le _
  | wiring _ hc | spawning _ hc => exact hlength hc
  | sending _ hc | closingFirst _ hc | receiving _ hc | closingLast _ hc | joining _ hc
  | disposing _ _ hc => exact Nat.le_of_eq (hw.complete hc)
  | abandoning _ hg | reaping _ hg => exact absurd hg hw.not_givenUp
  | dropping ht | finished ht => exact Nat.le_of_eq (ht.started.symm.trans hw.started)

/-- **A run that looks at the ledger, or has settled on its ending, has joined all of its
threads.** -/
theorem Works.torn_down (hw : p.Works value) (hat : p.At c w phase feed s h deeds)
    (hlate : (⟨p, c, w, phase⟩ : Invocation α ω).looks = true ∨ phase.settled?.isSome) :
    c.crew = [] ∧ w.size = p.pipeline.length := by
  cases hat with
  | disposing hcrew _ hc => exact ⟨hcrew, hw.complete hc⟩
  | dropping ht | finished ht => exact ⟨ht.crew, ht.started.symm.trans hw.started⟩
  | abandoning _ hg | reaping _ hg => exact absurd hg hw.not_givenUp
  | _ => rcases hlate with h | h <;> cases h

end

end Plan

end Relay

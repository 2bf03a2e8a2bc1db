import Relay.Invocation.Shared
import Relay.Proofs.Tally

/-!
# Guests of a ledger

What a run does on a ledger that others use as well, whatever those others do. `Guest.Goes` lists
the steps: the caller reads a counter, or acts on the counters that it has read, or goes on without
looking at the ledger.

* `Goes.ledger`: the ledger moves as the log of the guest says (`Ledger.ofLog`);
* `Goes.sound`: the invariant of a run holds of a guest;
* `exists_step`, `Goes.stepsLeft_lt`: a guest can always move until it has ended, and every step
  takes it closer to its end;
* `step_alone`: a guest that nobody disturbs takes the steps of the run.
-/

namespace Relay

variable {α ω : Type}

attribute [ext] Ledger

namespace Ledger

/-- The counters of two ledgers, added up. -/
instance : Add Ledger where
  add l t :=
    { channelsCreated := l.channelsCreated + t.channelsCreated
      channelsDisposed := l.channelsDisposed + t.channelsDisposed
      threadsSpawned := l.threadsSpawned + t.threadsSpawned
      threadsJoined := l.threadsJoined + t.threadsJoined }

section Add

variable (l t m : Ledger) (c : Counter)

@[simp] theorem channelsCreated_add :
    (l + t).channelsCreated = l.channelsCreated + t.channelsCreated := rfl

@[simp] theorem channelsDisposed_add :
    (l + t).channelsDisposed = l.channelsDisposed + t.channelsDisposed := rfl

@[simp] theorem threadsSpawned_add :
    (l + t).threadsSpawned = l.threadsSpawned + t.threadsSpawned := rfl

@[simp] theorem threadsJoined_add : (l + t).threadsJoined = l.threadsJoined + t.threadsJoined := rfl

@[simp] theorem add_empty : l + empty = l := rfl

theorem add_right_comm : l + t + m = l + m + t := by
  ext <;> simp only [channelsCreated_add, channelsDisposed_add, threadsSpawned_add,
    threadsJoined_add] <;> omega

theorem add_bump : l + t.bump c = (l + t).bump c := by
  cases c <;> rfl

@[simp] theorem follow_self : l.follow m m = l := by
  ext <;> simp only [follow] <;> omega

@[simp] theorem follow_bump : l.follow m (m.bump c) = l.bump c := by
  ext <;> cases c <;> simp only [follow, bump, read, write] <;> omega

end Add

/-- What the ledger was moved by, as a log tells it. -/
def ofLog (log : List Event) : Ledger where
  channelsCreated := (log.filterMap Event.created?).length
  channelsDisposed := (log.filterMap Event.disposed?).length
  threadsSpawned := (log.filterMap Event.spawned?).length
  threadsJoined := (log.filterMap Event.joined?).length

theorem ofLog_append (log events : List Event) :
    ofLog (log ++ events) = ofLog log + ofLog events := by
  ext <;> simp only [ofLog, List.filterMap_append, List.length_append, channelsCreated_add,
    channelsDisposed_add, threadsSpawned_add, threadsJoined_add]

/-- An event that counts. -/
theorem ofLog_bump {log : List Event} {e : Event} {c : Counter} (h : ofLog [e] = empty.bump c) :
    ofLog (log ++ [e]) = (ofLog log).bump c := by
  rw [ofLog_append, h, add_bump, add_empty]

/-- Events that do not count. -/
theorem ofLog_quiet {log events : List Event} (h : ofLog events = empty) :
    ofLog (log ++ events) = ofLog log := by
  rw [ofLog_append, h, add_empty]

end Ledger

/-! ## What a run does to its ledger -/

namespace Record

variable {r r' : Record} {l l' : Ledger} {fault : Fault}

theorem of_dispose_ok (h : r.dispose l = .ok (r', l')) :
    r.disposed = false ∧ l.liveThreads = 0 ∧ r' = { r with disposed := true } ∧
      l' = l.bump .channelsDisposed := by
  cases hr : r.disposed with
  | true => rw [dispose, if_pos hr] at h; cases h
  | false =>
    by_cases hl : l.liveThreads = 0
    · rw [dispose_of_quiet hr hl] at h; cases h
      exact ⟨rfl, hl, rfl, rfl⟩
    · rw [dispose_of_live hr hl] at h; cases h

theorem of_dispose_error (hr : r.disposed = false) (h : r.dispose l = .error fault) :
    l.liveThreads ≠ 0 ∧ fault = .disposeWhileInUse r.id l.liveThreads := by
  by_cases hl : l.liveThreads = 0
  · rw [dispose_of_quiet hr hl] at h; cases h
  · rw [dispose_of_live hr hl] at h; cases h
    exact ⟨hl, rfl⟩

theorem drop_of_disposed (hr : r.disposed = true) : r.drop l = (l, []) :=
  if_pos hr

/-- What dropping a record that is not disposed does. -/
theorem drop_eq (hr : r.disposed = false) :
    r.drop l = (if l.liveThreads = 0 then l.bump .channelsDisposed else l, [r.release l]) :=
  Prod.ext (drop_fst hr) (drop_snd hr)

end Record

namespace Invocation

variable {p : Plan α ω} {l l' : Ledger} {v v' : Invocation α ω}

/-- The log tells what a step of the caller does to the ledger. -/
theorem Acts.ofLog (h : Acts p l v l' v') :
    Ledger.ofLog v'.custody.log = (Ledger.ofLog v.custody.log).follow l l' := by
  cases h with
  | opens | adds | starts | joins | reaps =>
    exact (Ledger.ofLog_bump rfl).trans (Ledger.follow_bump ..).symm
  | wires | returns => exact (Ledger.ofLog_quiet rfl).trans (Ledger.follow_self ..).symm
  | disposes _ hdispose =>
    obtain ⟨-, -, -, rfl⟩ := Record.of_dispose_ok hdispose
    exact (Ledger.ofLog_bump rfl).trans (Ledger.follow_bump ..).symm
  | @reaped _ _ _ _ fault =>
    refine (Ledger.ofLog_quiet ?_).trans (Ledger.follow_self ..).symm
    cases fault <;> rfl
  | @drops c _ _ _ record =>
    show Ledger.ofLog (c.log ++ (record.drop l).2) = (Ledger.ofLog c.log).follow l (record.drop l).1
    cases hr : record.disposed with
    | true => rw [Record.drop_of_disposed hr, List.append_nil, Ledger.follow_self]
    | false =>
      rw [Record.drop_eq hr, Record.release]
      split
      · rw [Ledger.follow_bump]; exact Ledger.ofLog_bump rfl
      · rw [Ledger.follow_self]; exact Ledger.ofLog_quiet rfl
  | _ => exact (Ledger.follow_self ..).symm

/-- A step moves one counter, if any. -/
theorem Acts.bumps (h : Acts p l v l' v') : l' = l ∨ ∃ c, l' = l.bump c := by
  cases h with
  | opens | adds => exact .inr ⟨.channelsCreated, rfl⟩
  | starts | joins | reaps => exact .inr ⟨_, rfl⟩
  | disposes _ hdispose =>
    obtain ⟨-, -, -, rfl⟩ := Record.of_dispose_ok hdispose
    exact .inr ⟨_, rfl⟩
  | @drops _ _ _ _ record =>
    cases hr : record.disposed with
    | true => exact .inl (by rw [Record.drop_of_disposed hr])
    | false =>
      rw [Record.drop_eq hr]
      split
      · exact .inr ⟨.channelsDisposed, rfl⟩
      · exact .inl rfl
  | _ => exact .inl rfl

variable {move : Move}

theorem ofLog_step (h : v.step move l = some (l', v')) :
    Ledger.ofLog v'.custody.log = (Ledger.ofLog v.custody.log).follow l l' := by
  rcases step_cases h with ⟨-, hact⟩ | ⟨i, w, -, -, rfl, rfl⟩
  · exact hact.ofLog
  · exact (Ledger.follow_self ..).symm

theorem bumps_step (h : v.step move l = some (l', v')) : l' = l ∨ ∃ c, l' = l.bump c := by
  rcases step_cases h with ⟨-, hact⟩ | ⟨i, w, -, -, rfl, rfl⟩
  · exact hact.bumps
  · exact .inl rfl

/-- A step moves one counter, if any, and logs that it does. -/
theorem counts_step (h : v.step move l = some (l', v')) :
    (l' = l ∧ Ledger.ofLog v'.custody.log = Ledger.ofLog v.custody.log) ∨
      ∃ c, l' = l.bump c ∧
        Ledger.ofLog v'.custody.log = (Ledger.ofLog v.custody.log).bump c := by
  have hlog := ofLog_step h
  rcases bumps_step h with rfl | ⟨c, rfl⟩
  · exact .inl ⟨rfl, hlog.trans (Ledger.follow_self ..)⟩
  · exact .inr ⟨c, rfl, hlog.trans (Ledger.follow_bump ..)⟩

/-- A caller that looks at the ledger can move whatever it sees. -/
theorem exists_step_of_looks (h : v.looks = true) (l : Ledger) :
    ∃ l' v', v.step .caller l = some (l', v') := by
  obtain ⟨p, c, w, phase⟩ := v
  suffices hsome : (callerStep p c l w phase).isSome by
    obtain ⟨x, hx⟩ := Option.isSome_iff_exists.mp hsome
    exact ⟨x.1, x.2, hx⟩
  cases phase with
  | disposing =>
    simp only [callerStep]
    split
    · rfl
    · split <;> rfl
  | dropping => simp only [callerStep]; split <;> rfl
  | _ => cases h

end Invocation

/-! ## Steps of a guest -/

namespace Guest

/-- The steps of a guest. -/
inductive Goes : Move → Ledger → Guest α ω → Ledger → Guest α ω → Prop where
  /-- The caller reads the next counter of its snapshot. -/
  | reads {l seen : Ledger} {v : Invocation α ω} {c : Counter} {rest : List Counter} :
    v.looks = true →
    Goes .caller l ⟨v, c :: rest, seen⟩ l ⟨v, rest, seen.write (l.read c) c⟩
  /-- The caller acts on the snapshot. -/
  | acts {l seen seen' : Ledger} {v v' : Invocation α ω} : v.looks = true →
    v.step .caller seen = some (seen', v') →
    Goes .caller l ⟨v, [], seen⟩ (l.follow seen seen') ⟨v', {}⟩
  /-- A thread moves, or the caller, which needs no snapshot. -/
  | moves {move : Move} {l l' : Ledger} {v v' : Invocation α ω} {r : Reading} :
    (move = .caller → v.looks = false) → v.step move l = some (l', v') →
    Goes move l ⟨v, r⟩ l' ⟨v', r⟩

variable {p : Plan α ω} {move : Move} {l l' base : Ledger} {g g' : Guest α ω}

theorem Goes.of_step (h : g.step move l = some (l', g')) : Goes move l g l' g' := by
  obtain ⟨v, pending, seen⟩ := g
  rw [step] at h
  split at h <;> rename_i hlook
  · obtain ⟨rfl, hlook⟩ := hlook
    cases pending with
    | nil =>
      obtain ⟨⟨seen', v'⟩, hstep, heq⟩ := Option.map_eq_some_iff.mp h
      cases heq
      exact .acts hlook hstep
    | cons c rest => cases h; exact .reads hlook
  · obtain ⟨⟨l'', v'⟩, hstep, heq⟩ := Option.map_eq_some_iff.mp h
    cases heq
    refine .moves (fun hm => ?_) hstep
    simpa [hm] using hlook

/-- A guest moves one counter, if any, and logs that it does. -/
theorem Goes.counts (h : Goes move l g l' g') :
    (l' = l ∧ Ledger.ofLog g'.run.custody.log = Ledger.ofLog g.run.custody.log) ∨
      ∃ c, l' = l.bump c ∧
        Ledger.ofLog g'.run.custody.log = (Ledger.ofLog g.run.custody.log).bump c := by
  cases h with
  | reads => exact .inl ⟨rfl, rfl⟩
  | acts _ hstep =>
    -- What the caller has seen need not be the ledger, but the same counter moves.
    rcases Invocation.counts_step hstep with ⟨rfl, hlog⟩ | ⟨c, rfl, hlog⟩
    · exact .inl ⟨Ledger.follow_self .., hlog⟩
    · exact .inr ⟨c, Ledger.follow_bump .., hlog⟩
  | moves _ hstep => exact Invocation.counts_step hstep

/-- **The ledger moves as the log says.** -/
theorem Goes.ledger (h : Goes move l g l' g') (hl : l = base + .ofLog g.run.custody.log) :
    l' = base + .ofLog g'.run.custody.log := by
  rcases h.counts with ⟨rfl, hlog⟩ | ⟨c, rfl, hlog⟩
  · rw [hlog, hl]
  · rw [hlog, hl, Ledger.add_bump]

/-- Started and joined threads are counted up one by one. -/
theorem Goes.threads (h : Goes move l g l' g') :
    let t := Ledger.ofLog g.run.custody.log
    let t' := Ledger.ofLog g'.run.custody.log
    t.threadsSpawned ≤ t'.threadsSpawned ∧
      t'.threadsSpawned + t'.threadsJoined ≤ t.threadsSpawned + t.threadsJoined + 1 := by
  intro t t'
  rcases h.counts with ⟨-, hlog⟩ | ⟨c, -, hlog⟩
  · rw [show t' = t from hlog]; omega
  · rw [show t' = t.bump c from hlog]
    cases c <;> simp only [Ledger.bump, Ledger.write, Ledger.read] <;> omega

/-- What holds of every run holds of a guest. -/
theorem Goes.sound (h : Goes move l g l' g') (hs : ∃ deeds, p.Sound deeds g.run) :
    ∃ deeds, p.Sound deeds g'.run := by
  obtain ⟨deeds, hs⟩ := hs
  cases h with
  | reads => exact ⟨deeds, hs⟩
  | acts _ hstep | moves _ hstep => exact ⟨_, hs.step hstep⟩

/-! ### Progress -/

/-- Some party of a guest can move as long as the caller is not done. -/
theorem exists_step (hs : ∃ deeds, p.Sound deeds g.run) (hend : g.run.ending? = none)
    (l : Ledger) : ∃ move, (g.step move l).isSome := by
  obtain ⟨deeds, hs⟩ := hs
  cases hlook : g.run.looks with
  | true =>
    refine ⟨.caller, ?_⟩
    rw [step, if_pos ⟨rfl, hlook⟩]
    split
    · obtain ⟨l', v', hstep⟩ := Invocation.exists_step_of_looks hlook g.reading.seen
      rw [hstep]; rfl
    · rfl
  | false =>
    obtain ⟨move, hmove⟩ := hs.exists_step l hend
    refine ⟨move, ?_⟩
    rw [step, if_neg (by rw [hlook]; exact fun h => nomatch h.2), Option.isSome_map]
    exact hmove

/-- The steps that a guest takes at most from here on: those of the run, and before any of them the
reads of a snapshot. -/
def stepsLeft (g : Guest α ω) : Nat :=
  5 * g.run.stepsLeft + g.reading.pending.length

/-- **Every step takes a guest closer to its end.** -/
theorem Goes.stepsLeft_lt (h : Goes move l g l' g') (hs : ∃ deeds, p.Sound deeds g.run) :
    g'.stepsLeft < g.stepsLeft := by
  obtain ⟨deeds, hs⟩ := hs
  cases h with
  | reads => exact Nat.lt_succ_self _
  | @acts _ _ _ v v' _ hstep =>
    have hlt : v'.stepsLeft < v.stepsLeft := hs.stepsLeft_lt hstep
    show 5 * v'.stepsLeft + 4 < 5 * v.stepsLeft + 0
    omega
  | @moves _ _ _ v v' r _ hstep =>
    have hlt : v'.stepsLeft < v.stepsLeft := hs.stepsLeft_lt hstep
    show 5 * v'.stepsLeft + r.pending.length < 5 * v.stepsLeft + r.pending.length
    omega

/-! ### A guest that is alone -/

/-- Lets one party of a guest move some times while nobody else uses the ledger. -/
def goOn (move : Move) : Nat → Ledger × Guest α ω → Option (Ledger × Guest α ω)
  | 0, s => some s
  | n + 1, s => (s.2.step move s.1).bind (goOn move n)

/-- **A guest that nobody disturbs takes the steps of the run**: the reads of a snapshot in a row
see the ledger as it is. -/
theorem step_alone {v v' : Invocation α ω} (h : v.step move l = some (l', v')) :
    ∃ n, goOn move (n + 1) (l, { run := v }) = some (l', { run := v' }) := by
  by_cases hlook : move = .caller ∧ v.looks
  · obtain ⟨rfl, hlook⟩ := hlook
    have hread (r : Reading) (hr : r.isDone = false) :
        (Guest.mk v r).step .caller l = some (l, ⟨v, r.advance l⟩) := by
      rw [step, if_pos ⟨rfl, hlook⟩, if_neg (by rw [hr]; nofun)]
    have hfollow : l.follow l l' = l' := by
      rcases Invocation.bumps_step h with rfl | ⟨c, rfl⟩
      · exact Ledger.follow_self ..
      · exact Ledger.follow_bump ..
    have hact : (Guest.mk v ⟨[], l⟩).step .caller l = some (l', { run := v' }) := by
      rw [step, if_pos ⟨rfl, hlook⟩, if_pos (by rfl), h]
      exact congrArg (fun m => some (m, Guest.mk v' {})) hfollow
    refine ⟨4, ?_⟩
    simp only [goOn]
    rw [hread _ rfl, Option.bind_some, hread _ rfl, Option.bind_some, hread _ rfl,
      Option.bind_some, hread _ rfl, Option.bind_some]
    exact (congrArg (·.bind some) hact).trans (Option.bind_some ..)
  · refine ⟨0, ?_⟩
    simp only [goOn]
    rw [step, if_neg hlook, h]; rfl

end Guest

end Relay

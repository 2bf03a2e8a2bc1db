import Relay.Proofs.Ledger
import Relay.Proofs.Sharing.Duo
import Relay.Proofs.Sharing.Hosted

/-!
# When two runs disturb each other

A run is to return its value and to dispose its channels, on a ledger of its own or not. But a
channel is disposed only while no thread of the ledger is live, be it one of another run. So of two
runs that work, one may come to dispose its channels too early, and then its value is lost
(`Duo.loses_value`). This module says when that cannot happen, and what holds nevertheless.

* `Visits.goes`: what a caller reads of the ledger while the other run goes on;
* `Reaches.calm_or_crossed`: a run sees live threads only if it is `Crossed`, that is, if threads of
  the other one are live while it looks;
* `Reaches.one_is_sure`: at most one of the runs sees live threads;
* `Reaches.shares_ledger`: how two runs end, and what they leave on the ledger.
-/

namespace Relay

variable {α ω α' ω' : Type}

/-! ## What a guest has read -/

/-- A guest on a ledger that began as `l₀`, beside another run whose log is `other`. It has seen at
most `n` live threads when it looked, and if it is about to look again, it has read at least `m`
joins of the other run. -/
structure Plan.Visits (p : Plan α ω) (value : ω) (n m : Nat) (l₀ : Ledger) (other : List Event)
    (g : Guest α ω) : Prop where
  sound : ∃ deeds, p.Sound deeds g.run
  hosted : p.Hosted value n g.run.custody g.run.wired g.run.phase
  /-- A snapshot is in the making only while the caller looks at the ledger. -/
  idle : g.run.looks = false → g.reading = {}
  joined : .threadsJoined ∉ g.reading.pending →
    l₀.threadsJoined + (Ledger.ofLog g.run.custody.log).threadsJoined + m ≤
      g.reading.seen.threadsJoined
  spawned : .threadsSpawned ∉ g.reading.pending →
    g.reading.seen.threadsSpawned ≤ l₀.threadsSpawned +
      (Ledger.ofLog g.run.custody.log).threadsSpawned + (Ledger.ofLog other).threadsSpawned

namespace Plan.Visits

variable {p : Plan α ω} {value : ω} {n m m' : Nat} {l₀ l l' : Ledger} {other other' : List Event}
  {g g' : Guest α ω} {move : Move}

/-- A guest that has read nothing yet. -/
theorem fresh {v : Invocation α ω} (hs : ∃ deeds, p.Sound deeds v)
    (hhosted : p.Hosted value n v.custody v.wired v.phase) :
    p.Visits value n m l₀ other { run := v } :=
  ⟨hs, hhosted, fun _ => rfl, fun hk => absurd (Reading.mem_pending _) hk,
    fun hk => absurd (Reading.mem_pending _) hk⟩

theorem start : p.Visits value n m l₀ other { run := p.start } :=
  fresh ⟨[], .start⟩ .start

theorem looks_of_read {k : Counter} (h : p.Visits value n m l₀ other g)
    (hk : k ∉ g.reading.pending) : g.run.looks = true := by
  by_contra hlook
  rw [h.idle (Bool.eq_false_iff.mpr hlook)] at hk
  exact hk (Reading.mem_pending k)

theorem spawned_le (h : p.Visits value n m l₀ other g) (hw : p.Works value) :
    (Ledger.ofLog g.run.custody.log).threadsSpawned ≤ p.pipeline.length := by
  obtain ⟨deeds, hp, feed, s, own, hf, hat⟩ := h.sound
  rw [h.hosted.spawned]
  exact hw.size_le hat

/-- A guest that looks at the ledger, or has settled on its ending, has joined all its threads. -/
theorem torn_down (h : p.Visits value n m l₀ other g) (hw : p.Works value)
    (hlate : g.run.looks = true ∨ g.run.phase.settled?.isSome) :
    (Ledger.ofLog g.run.custody.log).threadsSpawned = p.pipeline.length ∧
      (Ledger.ofLog g.run.custody.log).threadsJoined = p.pipeline.length := by
  obtain ⟨deeds, rfl, feed, s, own, hf, hat⟩ := h.sound
  obtain ⟨hcrew, hsize⟩ := hw.torn_down hat hlate
  have hjoined := h.hosted.joined
  rw [hcrew, hsize] at hjoined
  exact ⟨h.hosted.spawned.trans hsize, hjoined⟩

/-- The live threads that a guest has seen are those of the other run. -/
theorem seen_le (h : p.Visits value n m l₀ other g) (hw : p.Works value)
    (hl₀ : l₀.liveThreads = 0) (hlook : g.run.looks = true) (hdone : g.reading.pending = []) :
    g.reading.seen.liveThreads ≤ (Ledger.ofLog other).threadsSpawned - m := by
  obtain ⟨hspawned, hjoined⟩ := h.torn_down hw (.inl hlook)
  have hj := h.joined (by rw [hdone]; exact List.not_mem_nil)
  have hs := h.spawned (by rw [hdone]; exact List.not_mem_nil)
  rw [Ledger.liveThreads] at hl₀ ⊢
  omega

/-- A step of the other run. -/
theorem beside (h : p.Visits value n m l₀ other g)
    (hle : (Ledger.ofLog other).threadsSpawned ≤ (Ledger.ofLog other').threadsSpawned)
    (hm : g.run.looks = true → m' ≤ m) : p.Visits value n m' l₀ other' g where
  sound := h.sound
  hosted := h.hosted
  idle := h.idle
  joined := fun hk =>
    Nat.le_trans (Nat.add_le_add_left (hm (h.looks_of_read hk)) _) (h.joined hk)
  spawned := fun hk => Nat.le_trans (h.spawned hk) (Nat.add_le_add_left hle _)

/-- **Every step of a guest keeps it what it is**, if it is to see no more than `n` live threads. -/
theorem goes (h : p.Visits value n m l₀ other g) (hw : p.Works value) (hl₀ : l₀.liveThreads = 0)
    (hn : g.run.looks = true → (Ledger.ofLog other).threadsSpawned - m ≤ n)
    (hm : m ≤ (Ledger.ofLog other).threadsJoined)
    (hl : l = l₀ + .ofLog g.run.custody.log + .ofLog other) (hgoes : Guest.Goes move l g l' g') :
    p.Visits value n m l₀ other g' := by
  have hsound := hgoes.sound h.sound
  cases hgoes with
  | @reads _ seen v c rest hlook =>
    refine ⟨hsound, h.hosted, fun hidle => ?_, fun hk => ?_, fun hk => ?_⟩
    · rw [show v.looks = false from hidle] at hlook; cases hlook
    · show _ ≤ (seen.write (l.read c) c).read .threadsJoined
      rcases Ledger.read_write l seen hk with hread | ⟨hk, hread⟩
      · rw [hread, hl]
        exact Nat.add_le_add_left hm _
      · rw [hread]
        exact h.joined hk
    · show (seen.write (l.read c) c).read .threadsSpawned ≤ _
      rcases Ledger.read_write l seen hk with hread | ⟨hk, hread⟩
      · rw [hread, hl]
        exact Nat.le_refl _
      · rw [hread]
        exact h.spawned hk
  | acts hlook hstep =>
    have hseen := Nat.le_trans (h.seen_le hw hl₀ hlook rfl) (hn hlook)
    exact fresh hsound (h.hosted.step hw h.sound hstep fun _ _ => hseen)
  | @moves move _ _ v v' r hidle hstep =>
    have hhosted := h.hosted.step hw h.sound hstep fun hmove hlook => by
      rw [show v.looks = true from hlook] at hidle
      cases hidle hmove
    cases move with
    | caller =>
      obtain rfl : r = {} := h.idle (hidle rfl)
      exact fresh hsound hhosted
    | thread i =>
      obtain ⟨w, -, heq⟩ := Option.map_eq_some_iff.mp hstep
      cases heq
      exact ⟨hsound, hhosted, h.idle, h.joined, h.spawned⟩

end Plan.Visits

/-! ## Doubts -/

/-- The run has failed, or its caller has read that less than `full` threads were joined. -/
def Guest.Doubts (full : Nat) (g : Guest α ω) : Prop :=
  (∃ error, g.run.phase.settled? = some (.failed error)) ∨
    .threadsJoined ∉ g.reading.pending ∧ g.reading.seen.threadsJoined < full

namespace Plan.Visits

variable {p : Plan α ω} {value : ω} {n m k full : Nat} {l₀ l l' : Ledger} {other : List Event}
  {g g' : Guest α ω} {move : Move}

theorem joined_of_doubts (h : p.Visits value n m l₀ other g) (hw : p.Works value)
    (hd : g.Doubts full) :
    (Ledger.ofLog g.run.custody.log).threadsJoined = p.pipeline.length := by
  rcases hd with ⟨error, hfail⟩ | ⟨hk, -⟩
  · exact (h.torn_down hw (.inr (by rw [hfail]; rfl))).2
  · exact (h.torn_down hw (.inl (h.looks_of_read hk))).2

/-- **A guest begins to doubt only while the other run has threads to join.** -/
theorem doubts (h : p.Visits value n m l₀ other g) (hw : p.Works value) (hl₀ : l₀.liveThreads = 0)
    (hk : (Ledger.ofLog other).threadsSpawned ≤ k)
    (hfull : full = l₀.threadsJoined + p.pipeline.length + k)
    (hl : l = l₀ + .ofLog g.run.custody.log + .ofLog other) (hgoes : Guest.Goes move l g l' g')
    (hd : g'.Doubts full) : g.Doubts full ∨ (Ledger.ofLog other).threadsJoined < k := by
  cases hgoes with
  | @reads _ seen v c rest hlook =>
    rcases hd with hfail | ⟨hm, hlt⟩
    · exact .inl (.inl hfail)
    · have hlt : (seen.write (l.read c) c).read .threadsJoined < full := hlt
      rcases Ledger.read_write l seen hm with hread | ⟨hm, hread⟩
      · have hown := (h.torn_down hw (.inl hlook)).2
        rw [hread, hl, hfull] at hlt
        have hlt : l₀.threadsJoined + (Ledger.ofLog v.custody.log).threadsJoined +
          (Ledger.ofLog other).threadsJoined < l₀.threadsJoined + p.pipeline.length + k := hlt
        rw [show (Ledger.ofLog v.custody.log).threadsJoined = _ from hown] at hlt
        exact .inr (Nat.lt_of_add_lt_add_left hlt)
      · exact .inl (.inr ⟨hm, show seen.read .threadsJoined < full from hread ▸ hlt⟩)
  | @acts _ seen seen' v v' hlook hstep =>
    rcases hd with ⟨error, hfail⟩ | ⟨hm, -⟩
    · rcases h.hosted.settles hw h.sound hstep hfail with hfail | ⟨-, -, hlive⟩
      · exact .inl (.inl hfail)
      · refine .inl (.inr ⟨List.not_mem_nil, ?_⟩)
        have hs := h.spawned List.not_mem_nil
        have hown := (h.torn_down hw (.inl hlook)).1
        rw [Ledger.liveThreads] at hl₀ hlive
        show seen.threadsJoined < full
        have hs : seen.threadsSpawned ≤ _ := hs
        omega
    · exact absurd (Reading.mem_pending _) hm
  | @moves move _ _ v v' r hidle hstep =>
    rcases hd with ⟨error, hfail⟩ | hread
    · rcases h.hosted.settles hw h.sound hstep hfail with hfail | ⟨hmove, hlook, -⟩
      · exact .inl (.inl hfail)
      · rw [hidle hmove] at hlook; cases hlook
    · exact .inl (.inr hread)

end Plan.Visits

/-! ## Both runs -/

namespace Duo

variable {p : Plan α ω} {p' : Plan α' ω'} {value : ω} {value' : ω'} {l₀ : Ledger}
  {schedule : List (Side × Move)} {d : Duo α ω α' ω'}

/-- Both are guests. -/
theorem Reaches.visits (hw : p.Works value) (hw' : p'.Works value') (hl₀ : l₀.liveThreads = 0)
    (h : Reaches p p' l₀ schedule d) :
    p.Visits value p'.pipeline.length 0 l₀ d.right.run.custody.log d.left ∧
      p'.Visits value' p.pipeline.length 0 l₀ d.left.run.custody.log d.right := by
  induction h with
  | start => exact ⟨.start, .start⟩
  | step side move hr hstep ih =>
    obtain ⟨hleft, hright⟩ := ih
    have hledger := hr.ledger
    rcases step_cases hstep with ⟨-, hgoes, hsame⟩ | ⟨-, hgoes, hsame⟩
    · rw [hsame]
      rw [Ledger.add_right_comm] at hledger
      refine ⟨hleft.goes hw hl₀ (fun _ => hright.spawned_le hw') (Nat.zero_le _) ?_ hgoes,
        hright.beside hgoes.threads.1 fun _ => Nat.le_refl 0⟩
      rw [hledger, Ledger.add_right_comm]
    · rw [hsame]
      rw [Ledger.add_right_comm] at hledger
      exact ⟨hleft.beside hgoes.threads.1 fun _ => Nat.le_refl 0,
        hright.goes hw' hl₀ (fun _ => hleft.spawned_le hw) (Nat.zero_le _) hledger hgoes⟩

/-- **Never do both runs doubt**: who begins to doubt has joined all of its own threads, and so has
the other one when it begins to doubt. -/
theorem Reaches.one_is_sure {full : Nat} (hw : p.Works value) (hw' : p'.Works value')
    (hl₀ : l₀.liveThreads = 0)
    (hfull : full = l₀.threadsJoined + p.pipeline.length + p'.pipeline.length)
    (h : Reaches p p' l₀ schedule d) : ¬(d.left.Doubts full ∧ d.right.Doubts full) := by
  induction h with
  | start =>
    rintro ⟨⟨error, hfail⟩ | ⟨hm, -⟩, -⟩
    · cases hfail
    · exact hm (Reading.mem_pending _)
  | step side move hr hstep ih =>
    obtain ⟨hleft, hright⟩ := hr.visits hw hw' hl₀
    have hledger := hr.ledger
    rintro ⟨hd, hd'⟩
    rcases step_cases hstep with ⟨-, hgoes, hsame⟩ | ⟨-, hgoes, hsame⟩
    · rw [hsame] at hd'
      rcases hleft.doubts hw hl₀ (hright.spawned_le hw') hfull hledger hgoes hd with hd | hlt
      · exact ih ⟨hd, hd'⟩
      · exact absurd (hright.joined_of_doubts hw' hd') (Nat.ne_of_lt hlt)
    · rw [hsame] at hd
      rw [Ledger.add_right_comm] at hledger
      rw [Nat.add_right_comm] at hfull
      rcases hright.doubts hw' hl₀ (hleft.spawned_le hw) hfull hledger hgoes hd' with hd' | hlt
      · exact ih ⟨hd, hd'⟩
      · exact absurd (hleft.joined_of_doubts hw hd) (Nat.ne_of_lt hlt)

/-- One of the runs looks at the ledger while threads of the other one are live. -/
def Crossed (d : Duo α ω α' ω') : Side → Prop
  | .left => d.left.run.looks = true ∧ d.right.run.custody.crew ≠ []
  | .right => d.right.run.looks = true ∧ d.left.run.custody.crew ≠ []

/-- One of the runs was crossed on the way. -/
def CrossedOn (p : Plan α ω) (p' : Plan α' ω') (l₀ : Ledger) (side : Side)
    (schedule : List (Side × Move)) : Prop :=
  ∃ turns d, turns <+: schedule ∧ Reaches p p' l₀ turns d ∧ d.Crossed side

theorem CrossedOn.swap
    (h : CrossedOn p' p l₀ .left (schedule.map fun t => (t.1.other, t.2))) :
    CrossedOn p p' l₀ .right schedule := by
  obtain ⟨turns, d, hprefix, hreach, hcrossed⟩ := h
  refine ⟨_, d.swap, ?_, hreach.swap, hcrossed⟩
  have hprefix := hprefix.map fun t : Side × Move => (t.1.other, t.2)
  have htwice (t : Side × Move) : (t.1.other.other, t.2) = t := by
    obtain ⟨side, move⟩ := t
    cases side <;> rfl
  simpa only [List.map_map, Function.comp_def, htwice, List.map_id'] using hprefix

/-- A left run that was never crossed has seen no live thread. -/
theorem Reaches.calm_or_crossed (hw : p.Works value) (hw' : p'.Works value')
    (hl₀ : l₀.liveThreads = 0) (h : Reaches p p' l₀ schedule d) :
    CrossedOn p p' l₀ .left schedule ∨
      p.Visits value 0 (Ledger.ofLog d.right.run.custody.log).threadsJoined l₀
        d.right.run.custody.log d.left := by
  induction h with
  | start => exact .inr .start
  | @step schedule d d' side move hr hstep ih =>
    rcases ih with ⟨turns, d₁, hprefix, hcrossed⟩ | hcalm
    · exact .inl ⟨turns, d₁, hprefix.trans (List.prefix_append _ _), hcrossed⟩
    by_cases hnow : d.Crossed .left
    · exact .inl ⟨schedule, d, List.prefix_append _ _, hr, hnow⟩
    by_cases hnext : d'.Crossed .left
    · exact .inl ⟨_, d', List.prefix_refl _, hr.step side move hstep, hnext⟩
    refine .inr ?_
    -- While the left run looks, the right one has joined what it has started.
    have hquiet {d : Duo α ω α' ω'} (hnot : ¬d.Crossed .left)
        (hright : p'.Visits value' p.pipeline.length 0 l₀ d.left.run.custody.log d.right)
        (hlook : d.left.run.looks = true) :
        (Ledger.ofLog d.right.run.custody.log).threadsSpawned =
          (Ledger.ofLog d.right.run.custody.log).threadsJoined := by
      have hcrew : d.right.run.custody.crew = [] := by
        by_contra hcrew
        exact hnot ⟨hlook, hcrew⟩
      have hjoined := hright.hosted.joined
      rw [hcrew] at hjoined
      exact hright.hosted.spawned.trans hjoined.symm
    have hbefore := hquiet hnow (hr.visits hw hw' hl₀).2
    have hafter := hquiet hnext ((hr.step side move hstep).visits hw hw' hl₀).2
    rcases step_cases hstep with ⟨-, hgoes, hsame⟩ | ⟨-, hgoes, hsame⟩
    · rw [hsame]
      refine hcalm.goes hw hl₀ (fun hlook => ?_) (Nat.le_refl _) hr.ledger hgoes
      rw [hbefore hlook]
      omega
    · obtain ⟨hspawned, hsum⟩ := hgoes.threads
      rw [hsame] at hafter ⊢
      refine hcalm.beside hspawned fun hlook => ?_
      have hbefore := hbefore hlook
      have hafter := hafter hlook
      omega

end Duo

/-! ## What comes of the runs -/

/-- What a run that works shows in the end: every channel that it created was disposed or lost, in
turn, and it returned the value and lost none, or it was disturbed. -/
structure Plan.Leaves (p : Plan α ω) (value : ω) (n : Nat) (log : List Event) (e : Ending ω) :
    Prop where
  created : (log.filterMap Event.created?).length = p.pipeline.length + 1
  released : log.filterMap Event.released? = log.filterMap Event.created?
  outcome : e = .returned value ∧ log.filterMap Event.lost? = [] ∨ e.Disturbed n log

theorem Event.length_released (log : List Event) : (log.filterMap Event.released?).length =
    (log.filterMap Event.disposed?).length + (log.filterMap Event.lost?).length := by
  induction log with
  | nil => rfl
  | cons e log ih =>
    cases e with
    | disposed channel =>
      show (log.filterMap Event.released?).length + 1 =
        (log.filterMap Event.disposed?).length + 1 + (log.filterMap Event.lost?).length
      omega
    | warning fault =>
      cases fault with
      | disposeWhileInUse channel live => exact congrArg (· + 1) ih
      | _ => exact ih
    | _ => exact ih

/-- What two runs leave on the ledger when both have ended. -/
structure Duo.Settled (p : Plan α ω) (p' : Plan α' ω') (l₀ : Ledger) (d : Duo α ω α' ω') :
    Prop where
  created : d.ledger.channelsCreated =
    l₀.channelsCreated + (p.pipeline.length + 1) + (p'.pipeline.length + 1)
  /-- A channel is missing for each one that was lost. -/
  disposed : d.ledger.channelsDisposed + (d.left.run.custody.log.filterMap Event.lost?).length +
      (d.right.run.custody.log.filterMap Event.lost?).length =
    l₀.channelsDisposed + (p.pipeline.length + 1) + (p'.pipeline.length + 1)
  spawned : d.ledger.threadsSpawned = l₀.threadsSpawned + p.pipeline.length + p'.pipeline.length
  joined : d.ledger.threadsJoined = l₀.threadsJoined + p.pipeline.length + p'.pipeline.length
  balanced : d.left.run.custody.log.filterMap Event.lost? = [] →
    d.right.run.custody.log.filterMap Event.lost? = [] → d.ledger.isBalanced = true

namespace Plan.Visits

variable {p : Plan α ω} {value : ω} {n m : Nat} {l₀ : Ledger} {other : List Event}
  {g : Guest α ω} {e : Ending ω}

theorem settled_of_ended {v : Invocation α ω} (hend : v.ending? = some e) :
    v.phase.settled? = some e := by
  obtain ⟨p, c, w, phase⟩ := v
  cases phase with
  | finished => exact hend
  | _ => cases hend

theorem leaves (h : p.Visits value n m l₀ other g) (hw : p.Works value)
    (hend : g.run.ending? = some e) : p.Leaves value n g.run.custody.log e := by
  have hhosted := h.hosted
  obtain ⟨⟨q, c, w, phase⟩, reading⟩ := g
  cases phase with
  | finished =>
    cases hend
    obtain ⟨hrecords, houtcome⟩ := hhosted.inOrder
    refine ⟨hhosted.created.trans hw.channels, ?_, houtcome⟩
    have hreleased := hhosted.released
    rwa [show c.records = [] from hrecords, show pending [] = [] from rfl, List.append_nil]
      at hreleased
  | _ => cases hend

end Plan.Visits

namespace Duo

variable {p : Plan α ω} {p' : Plan α' ω'} {value : ω} {value' : ω'} {l₀ : Ledger}
  {schedule : List (Side × Move)} {d : Duo α ω α' ω'} {e : Ending ω} {e' : Ending ω'}

namespace Reaches

/-- A run that was never crossed returns its value. -/
theorem returned_or_crossed (hw : p.Works value) (hw' : p'.Works value')
    (hl₀ : l₀.liveThreads = 0) (h : Reaches p p' l₀ schedule d)
    (hend : d.left.run.ending? = some e) :
    e = .returned value ∨ CrossedOn p p' l₀ .left schedule := by
  rcases h.calm_or_crossed hw hw' hl₀ with hcrossed | hcalm
  · exact .inr hcrossed
  · rcases (hcalm.leaves hw hend).outcome with ⟨hreturned, -⟩ | ⟨channel, live, -, -, hpos, hle⟩
    · exact .inl hreturned
    · omega

theorem one_returns (hw : p.Works value) (hw' : p'.Works value') (hl₀ : l₀.liveThreads = 0)
    (h : Reaches p p' l₀ schedule d) (hend : d.left.run.ending? = some e)
    (hend' : d.right.run.ending? = some e') : e = .returned value ∨ e' = .returned value' := by
  obtain ⟨hleft, hright⟩ := h.visits hw hw' hl₀
  rcases (hleft.leaves hw hend).outcome with ⟨hreturned, -⟩ | ⟨channel, live, rfl, -⟩
  · exact .inl hreturned
  rcases (hright.leaves hw' hend').outcome with ⟨hreturned, -⟩ | ⟨channel', live', rfl, -⟩
  · exact .inr hreturned
  exact absurd ⟨.inl ⟨_, Plan.Visits.settled_of_ended hend⟩,
    .inl ⟨_, Plan.Visits.settled_of_ended hend'⟩⟩ (h.one_is_sure hw hw' hl₀ rfl)

/-- **The two runs settle their accounts**, but for the channels that were lost. -/
theorem settled (hw : p.Works value) (hw' : p'.Works value') (hl₀ : l₀.isBalanced = true)
    (h : Reaches p p' l₀ schedule d) (hend : d.left.run.ending? = some e)
    (hend' : d.right.run.ending? = some e') : Settled p p' l₀ d := by
  obtain ⟨hchannels, hthreads⟩ := Ledger.isBalanced_iff.mp hl₀
  obtain ⟨hleft, hright⟩ := h.visits hw hw' hthreads
  obtain ⟨hcreated, hreleased, -⟩ := hleft.leaves hw hend
  obtain ⟨hcreated', hreleased', -⟩ := hright.leaves hw' hend'
  obtain ⟨hs, hj⟩ := hleft.torn_down hw (.inr (by rw [Plan.Visits.settled_of_ended hend]; rfl))
  obtain ⟨hs', hj'⟩ := hright.torn_down hw' (.inr (by rw [Plan.Visits.settled_of_ended hend']; rfl))
  have hcount := Event.length_released d.left.run.custody.log
  have hcount' := Event.length_released d.right.run.custody.log
  rw [hreleased, hcreated] at hcount
  rw [hreleased', hcreated'] at hcount'
  have hc : d.ledger.channelsCreated =
      l₀.channelsCreated + (p.pipeline.length + 1) + (p'.pipeline.length + 1) := by
    rw [h.ledger, ← hcreated, ← hcreated']; rfl
  have hd : d.ledger.channelsDisposed =
      l₀.channelsDisposed + (d.left.run.custody.log.filterMap Event.disposed?).length +
        (d.right.run.custody.log.filterMap Event.disposed?).length := by
    rw [h.ledger]; rfl
  have hspawned : d.ledger.threadsSpawned =
      l₀.threadsSpawned + p.pipeline.length + p'.pipeline.length := by
    rw [h.ledger, ← hs, ← hs']; rfl
  have hjoined : d.ledger.threadsJoined =
      l₀.threadsJoined + p.pipeline.length + p'.pipeline.length := by
    rw [h.ledger, ← hj, ← hj']; rfl
  rw [Ledger.liveChannels] at hchannels
  rw [Ledger.liveThreads] at hthreads
  refine ⟨hc, by omega, hspawned, hjoined, fun hlost hlost' => ?_⟩
  rw [hlost, List.length_nil] at hcount
  rw [hlost', List.length_nil] at hcount'
  rw [Ledger.isBalanced_iff, Ledger.liveChannels, Ledger.liveThreads]
  omega

/-- **Two runs that share a ledger** cannot block each other, and each of them returns its value
unless it looks at the ledger while threads of the other one are live. Then it may fail at one of
its channels, but not both of them fail, and the ledger is settled but for the channels that were
lost. -/
theorem shares_ledger (hw : p.Works value) (hw' : p'.Works value') (hl₀ : l₀.isBalanced = true)
    (h : Reaches p p' l₀ schedule d) :
    ((d.left.run.ending? = none → ∃ move, (d.step .left move).isSome) ∧
      (d.right.run.ending? = none → ∃ move, (d.step .right move).isSome) ∧
      schedule.length + d.stepsLeft ≤ 45 * (p.pipeline.length + p'.pipeline.length) + 118 ∧
      ∃ schedule' d', Reaches p p' l₀ (schedule ++ schedule') d' ∧
        d'.left.run.ending?.isSome ∧ d'.right.run.ending?.isSome) ∧
    (∀ e, d.left.run.ending? = some e →
      p.Leaves value p'.pipeline.length d.left.run.custody.log e ∧
        (e = .returned value ∨ CrossedOn p p' l₀ .left schedule)) ∧
    (∀ e', d.right.run.ending? = some e' →
      p'.Leaves value' p.pipeline.length d.right.run.custody.log e' ∧
        (e' = .returned value' ∨ CrossedOn p p' l₀ .right schedule)) ∧
    ∀ e e', d.left.run.ending? = some e → d.right.run.ending? = some e' →
      (e = .returned value ∨ e' = .returned value') ∧ Settled p p' l₀ d := by
  have hthreads : l₀.liveThreads = 0 := (Ledger.isBalanced_iff.mp hl₀).2
  obtain ⟨hleft, hright⟩ := h.visits hw hw' hthreads
  obtain ⟨hgo, hgo', -, hbound⟩ := h.progresses
  refine ⟨⟨hgo, hgo', hbound, h.exists_ended⟩, fun e hend => ?_, fun e' hend' => ?_,
    fun e e' hend hend' => ?_⟩
  · exact ⟨hleft.leaves hw hend, h.returned_or_crossed hw hw' hthreads hend⟩
  · exact ⟨hright.leaves hw' hend',
      (h.swap.returned_or_crossed hw' hw hthreads hend').imp_right CrossedOn.swap⟩
  · exact ⟨h.one_returns hw hw' hthreads hend hend', h.settled hw hw' hl₀ hend hend'⟩

end Reaches

/-- The left run comes to dispose its channels while the first thread of the right one waits, which
goes on when the left one has ended. -/
def specimenTurns : List (Side × Move) :=
  let turns (n : Nat) (side : Side) (move : Move) := List.replicate n (side, move)
  turns 3 .right .caller ++
    turns 8 .left .caller ++ turns 4 .left (.thread 0) ++ turns 4 .left (.thread 1) ++
    turns 26 .left .caller ++
    turns 5 .right .caller ++ turns 4 .right (.thread 0) ++ turns 4 .right (.thread 1) ++
    turns 25 .right .caller

/-- The left run computes six, and then fails at its first channel; all of its channels are lost. -/
theorem Reaches.shares_ledger_specimen :
    let p := Plan.specimen 3 fun _ _ => .started
    let p' := Plan.specimen 4 fun _ _ => .started
    ∃ d, Reaches p p' .empty specimenTurns d ∧
      d.left.run.ending? = some (.failed ⟨[], .disposeWhileInUse 3 1⟩) ∧
      d.left.run.custody.log.filterMap Event.lost? = [3, 4, 5] ∧
      CrossedOn p p' .empty .left specimenTurns ∧
      d.right.run.ending? = some (.returned 8) ∧ Settled p p' .empty d := by
  intro p p'
  have hw : p.Works 6 := ⟨fun _ _ _ _ => rfl, rfl⟩
  have hw' : p'.Works 8 := ⟨fun _ _ _ _ => rfl, rfl⟩
  have hview : ((Duo.start p p' .empty).play specimenTurns).map (fun d =>
      (d.left.run.ending?, d.left.run.custody.log.filterMap Event.lost?, d.right.run.ending?)) =
      some (some (.failed ⟨[], .disposeWhileInUse 3 1⟩), [3, 4, 5], some (.returned 8)) := by
    decide +kernel
  obtain ⟨d, hd, hview⟩ := Option.map_eq_some_iff.mp hview
  simp only [Prod.mk.injEq] at hview
  obtain ⟨hend, hlost, hend'⟩ := hview
  have h₀ : Reaches p p' .empty [] (Duo.start p p' .empty) := .start
  have h := h₀.play hd
  obtain ⟨-, hleft, -, hboth⟩ := h.shares_ledger hw hw' rfl
  exact ⟨d, h, hend, hlost, (hleft _ hend).2.resolve_left nofun, hend', (hboth _ _ hend hend').2⟩

/-- A value may be lost, and the ledger left unbalanced, though both runs work and the ledger was
balanced. -/
theorem loses_value :
    let p := Plan.specimen 3 fun _ _ => .started
    let p' := Plan.specimen 4 fun _ _ => .started
    (p.Works 6 ∧ p'.Works 8 ∧ Ledger.empty.isBalanced = true) ∧
      (¬∀ schedule d e, Reaches p p' .empty schedule d →
        d.left.run.ending? = some e → e = .returned 6) ∧
      ¬∀ schedule d, Reaches p p' .empty schedule d → d.left.run.ending?.isSome →
        d.right.run.ending?.isSome → d.ledger.isBalanced = true := by
  intro p p'
  have hview : ((Duo.start p p' .empty).play specimenTurns).map (fun d =>
      (d.left.run.ending?, d.right.run.ending?, d.ledger.isBalanced)) =
      some (some (.failed ⟨[], .disposeWhileInUse 3 1⟩), some (.returned 8), false) := by
    decide +kernel
  obtain ⟨d, hd, hview⟩ := Option.map_eq_some_iff.mp hview
  simp only [Prod.mk.injEq] at hview
  obtain ⟨hend, hend', hledger⟩ := hview
  have h₀ : Reaches p p' .empty [] (Duo.start p p' .empty) := .start
  have h := h₀.play hd
  refine ⟨⟨⟨fun _ _ _ _ => rfl, rfl⟩, ⟨fun _ _ _ _ => rfl, rfl⟩, rfl⟩, fun hall => ?_,
    fun hall => ?_⟩
  · cases hall _ d _ h hend
  · have hbalanced := hall _ d h (by rw [hend]; rfl) (by rw [hend']; rfl)
    rw [hledger] at hbalanced
    cases hbalanced

end Duo

end Relay

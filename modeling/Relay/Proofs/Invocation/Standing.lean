import Relay.Proofs.Invocation.Passage
import Relay.Proofs.Invocation.Rules

/-!
# What holds of a run at each point

`Plan.At` says, for each thing that the caller may be about to do, how that goes together with the
flow of the value, and `Plan.Sound` joins it to `Flow`. No ledger occurs in either, so they hold
whatever others do to the ledger meanwhile.

* `At.thread`: the steps of the threads keep it;
* `Joined.join`, `Joined.all`: what the caller knows of the threads that it has joined.
-/

namespace Relay

variable {α β ω : Type}

/-- What the reader got, once there is nothing more to expect. -/
inductive Supply.Yields : Supply β → Option β → Prop where
  | value {b : β} : Yields (.spent b) (some b)
  | nothing : Yields .dry none

/-- The caller holds the receiving end of the last channel, the thread of every lane was started,
and none was joined. -/
structure Plan.Launched (p : Plan α ω) (c : Custody) (w : Wired α β) : Prop where
  crew : c.crew = w.handles
  launches : ∀ x ∈ p.launches w.chain.names, x.2 = .started
  receiver : w.last.receiver = true

/-- The threads that are not in custody any more have exited, and `fault` is that of the first of
them that panicked. -/
def Custody.Joined (c : Custody) (w : Wired α β) (fault : Option Fault) : Prop :=
  ∃ done, w.handles = done ++ c.crew ∧ w.Exited done ∧ fault = w.firstPanic done

/-- All stages are wired, each with a thread that was started. -/
structure Plan.Complete (p : Plan α ω) (w : Wired α ω) : Prop where
  chain : w.chain = p.pipeline.chain
  setback : p.setback? = none
  started : p.started = w.size

/-- What is done in a whole run: nothing if a thread cannot be started. -/
def Plan.transcript (p : Plan α ω) : List Deed :=
  if p.setback?.isSome then [] else p.course

/-- The caller gave up after the lanes of `w`. -/
def Plan.GivenUp (p : Plan α ω) (w : Wired α β) : Prop :=
  p.started = w.size ∧ p.setback?.isSome

/-- The caller is through with the lanes of `w` and all of their threads. -/
structure Plan.Through (p : Plan α ω) (c : Custody) (w : Wired α β) (feed : Feed)
    (deeds : List Deed) : Prop where
  crew : c.crew = []
  exited : w.Exited w.handles
  started : p.started = w.size
  feed : feed = if p.setback?.isSome then .cut else .sent
  transcript : deeds = p.transcript

/-- How what the caller is about to do goes together with what is in custody, what the caller has
done with the input, what there is to expect of the last channel, and the transcripts of the lanes
and of the run. -/
inductive Plan.At (p : Plan α ω) (c : Custody) : {β : Type} → Wired α β → Phase α ω β → Feed →
    Supply β → List Deed → List Deed → Prop where
  | opening {first : Channel α} : c = {} → first.receiver = true →
    At p c (.entry first) .opening .idle .pending [] []
  | wiring {β : Type} {w : Wired α β} {rest : Chain β ω} {s : Supply β} {h : List Deed} :
    p.Launched c w → w.chain.append rest = p.pipeline.chain →
    At p c w (.wiring rest) .idle s h h
  | spawning {β γ : Type} {w : Wired α β} {st : Stage β γ} {rest : Chain γ ω} {s : Supply β}
    {h : List Deed} : p.Launched c w → w.chain.append (.cons st rest) = p.pipeline.chain →
    At p c w (.spawning st (.ofCapacity p.tuning.capacity) rest) .idle s h h
  | sending {w : Wired α ω} {s : Supply ω} {h : List Deed} : p.Launched c w → p.Complete w →
    At p c w .sending .idle s h h
  | closingFirst {w : Wired α ω} {s : Supply ω} {h : List Deed} : p.Launched c w →
    p.Complete w → s.Untaken → At p c w .closingFirst .sent s h h
  | receiving {w : Wired α ω} {s : Supply ω} {h : List Deed} : p.Launched c w → p.Complete w →
    s.Untaken → At p c w .receiving .sent s h h
  | closingLast {w : Wired α ω} {got : Option ω} {s : Supply ω} {h : List Deed} :
    c.crew = w.handles → p.Complete w → s.Yields got →
    At p c w (.closingLast got) .sent s h p.course
  | joining {w : Wired α ω} {got : Option ω} {fault : Option Fault} {s : Supply ω}
    {h : List Deed} : c.Joined w fault → p.Complete w → s.Yields got →
    At p c w (.joining got fault) .sent s h p.course
  | disposing {w : Wired α ω} {value : ω} {done : List Record} {s : Supply ω} {h : List Deed} :
    c.crew = [] → w.Exited w.handles → p.Complete w →
    p.pipeline.chain.eval p.tuning.threadName p.input = .ok value →
    At p c w (.disposing value done) .sent s h p.course
  | abandoning {β : Type} {w : Wired α β} {ending : Ending ω} {s : Supply β} {h : List Deed} :
    c.crew = w.handles → p.GivenUp w → At p c w (.abandoning ending) .idle s h h
  | reaping {β : Type} {w : Wired α β} {ending : Ending ω} {fault : Option Fault} {s : Supply β}
    {h : List Deed} : c.Joined w fault → p.GivenUp w →
    At p c w (.reaping ending fault) .cut s h h
  | dropping {β : Type} {w : Wired α β} {ending : Ending ω} {feed : Feed} {s : Supply β}
    {h deeds : List Deed} : p.Through c w feed deeds →
    At p c w (.dropping ending) feed s h deeds
  | finished {β : Type} {w : Wired α β} {ending : Ending ω} {feed : Feed} {s : Supply β}
    {h deeds : List Deed} : p.Through c w feed deeds →
    At p c w (.finished ending) feed s h deeds

/-- The invariant of a run with transcript `deeds`. -/
def Plan.Sound (p : Plan α ω) (deeds : List Deed) (v : Invocation α ω) : Prop :=
  v.plan = p ∧ ∃ feed s h, Flow p.tuning.threadName p.input feed v.wired s h ∧
    p.At v.custody v.wired v.phase feed s h deeds

/-! ## Threads that have exited -/

namespace Wired

theorem step_eq_none_of_exited {w : Wired α β} (hex : w.Exited w.handles) (i : Nat) :
    w.step i = none := by
  induction w with
  | entry c => rfl
  | lane w l ih =>
    obtain ⟨hex, hexit⟩ := exited_lane.mp hex
    rw [step, ih hex]
    split
    · cases hstep : l.step w.last with
      | none => rfl
      | some x =>
        obtain ⟨l', c⟩ := x
        rw [(Lane.step_inv hstep).2.2.2.1] at hexit
        cases hexit
    · rfl

/-- What a step of a thread leaves of threads that have exited. -/
theorem exit?_step_of_exited {i : Nat} {w w' : Wired α β} {hs : List Handle}
    (hstep : w.step i = some w') (hex : w.Exited hs) :
    ∀ h ∈ hs, w'.exit? h.thread = w.exit? h.thread := by
  intro h hm
  obtain ⟨panicked, hp⟩ := Option.isSome_iff_exists.mp (hex h hm)
  rw [exit?_step hstep hp, hp]

end Wired

theorem Flow.ne_pending_of_exited {t : String → String} {x : α} {feed : Feed} {w : Wired α β}
    {s : Supply β} {h : List Deed} (hf : Flow t x feed w s h) (hfeed : feed ≠ .idle)
    (hex : w.Exited w.handles) : s ≠ .pending := by
  rcases hf.exists_step hfeed with ⟨i, -, hstep⟩ | ⟨hs, -⟩
  · rw [Wired.step_eq_none_of_exited hex] at hstep; cases hstep
  · exact hs

/-! ## Steps of threads -/

section Thread

variable {p : Plan α ω} {c : Custody} {w w' : Wired α β} {i : Nat}

theorem Plan.Launched.step (h : p.Launched c w) (hstep : w.step i = some w')
    (hlast : w'.last.receiver = w.last.receiver) : p.Launched c w' :=
  ⟨Wired.handles_step hstep ▸ h.crew, Wired.chain_step hstep ▸ h.launches, hlast ▸ h.receiver⟩

theorem Plan.Complete.step {w w' : Wired α ω} (h : p.Complete w) (hstep : w.step i = some w') :
    p.Complete w' :=
  ⟨Wired.chain_step hstep ▸ h.chain, h.setback, Wired.size_step hstep ▸ h.started⟩

theorem Plan.GivenUp.step (h : p.GivenUp w) (hstep : w.step i = some w') : p.GivenUp w' :=
  ⟨Wired.size_step hstep ▸ h.1, h.2⟩

theorem Custody.Joined.step {fault : Option Fault} (h : c.Joined w fault)
    (hstep : w.step i = some w') : c.Joined w' fault := by
  obtain ⟨done, hhandles, hex, hfault⟩ := h
  have hsame := Wired.exit?_step_of_exited hstep hex
  refine ⟨done, Wired.handles_step hstep ▸ hhandles, fun h hm => hsame h hm ▸ hex h hm, ?_⟩
  rw [Wired.firstPanic_congr hsame, hfault]

theorem Supply.Yields.settled {s s' : Supply β} {got : Option β} {d : Option Deed}
    (h : s.Yields got) (hgrow : s.Grows s') (hd : s = .pending ∨ d = none) : s' = s ∧ d = none := by
  cases h <;> exact ⟨hgrow.resolve_right nofun, hd.resolve_left nofun⟩

/-- A step of a thread keeps what holds of the caller. -/
theorem Plan.At.thread {phase : Phase α ω β} {feed : Feed} {s s' : Supply β} {h deeds : List Deed}
    {d : Option Deed} (hat : p.At c w phase feed s h deeds) (hstep : w.step i = some w')
    (hgrow : s.Grows s') (hlast : w'.last.receiver = w.last.receiver)
    (hd : s = .pending ∨ d = none) :
    p.At c w' phase feed s' (h ++ d.toList) (deeds ++ d.toList) := by
  cases hat with
  | opening => cases hstep
  | wiring hl hc => exact .wiring (hl.step hstep hlast) (Wired.chain_step hstep ▸ hc)
  | spawning hl hc => exact .spawning (hl.step hstep hlast) (Wired.chain_step hstep ▸ hc)
  | sending hl hc => exact .sending (hl.step hstep hlast) (hc.step hstep)
  | closingFirst hl hc hs =>
    exact .closingFirst (hl.step hstep hlast) (hc.step hstep) (hgrow.untaken hs)
  | receiving hl hc hs =>
    exact .receiving (hl.step hstep hlast) (hc.step hstep) (hgrow.untaken hs)
  | closingLast hcrew hc hy =>
    obtain ⟨rfl, rfl⟩ := hy.settled hgrow hd
    simp only [Option.toList_none, List.append_nil]
    exact .closingLast (Wired.handles_step hstep ▸ hcrew) (hc.step hstep) hy
  | joining hj hc hy =>
    obtain ⟨rfl, rfl⟩ := hy.settled hgrow hd
    simp only [Option.toList_none, List.append_nil]
    exact .joining (hj.step hstep) (hc.step hstep) hy
  | abandoning hcrew hg =>
    exact .abandoning (Wired.handles_step hstep ▸ hcrew) (hg.step hstep)
  | reaping hj hg => exact .reaping (hj.step hstep) (hg.step hstep)
  | disposing _ hex => rw [Wired.step_eq_none_of_exited hex] at hstep; cases hstep
  | dropping ht | finished ht =>
    rw [Wired.step_eq_none_of_exited ht.exited] at hstep; cases hstep

end Thread

/-! ## Steps of the caller at the two ends -/

namespace Plan

variable {p : Plan α ω} {c : Custody}

theorem Launched.mapFirst {w : Wired α β} {f : Channel α → Channel α} (h : p.Launched c w)
    (hlast : (w.mapFirst f).last.receiver = w.last.receiver) : p.Launched c (w.mapFirst f) :=
  ⟨h.crew.trans (Wired.handles_mapFirst f w).symm, (Wired.chain_mapFirst f w).symm ▸ h.launches,
    hlast.trans h.receiver⟩

theorem Complete.mapFirst {w : Wired α ω} {f : Channel α → Channel α} (h : p.Complete w) :
    p.Complete (w.mapFirst f) :=
  ⟨(Wired.chain_mapFirst f w).trans h.chain, h.setback,
    h.started.trans (Wired.size_mapFirst f w).symm⟩

theorem Complete.setLast {w : Wired α ω} {c : Channel ω} (h : p.Complete w) :
    p.Complete (w.setLast c) :=
  ⟨(Wired.chain_setLast w c).trans h.chain, h.setback,
    h.started.trans (Wired.size_setLast w c).symm⟩

theorem GivenUp.mapFirst {w : Wired α β} {f : Channel α → Channel α} (h : p.GivenUp w) :
    p.GivenUp (w.mapFirst f) :=
  ⟨h.1.trans (Wired.size_mapFirst f w).symm, h.2⟩

theorem GivenUp.through {w : Wired α β} (h : p.GivenUp w) (hcrew : c.crew = [])
    (hex : w.Exited w.handles) : p.Through c w .cut [] :=
  ⟨hcrew, hex, h.1, (if_pos h.2).symm, (if_pos h.2).symm⟩

theorem Complete.transcript {w : Wired α ω} (h : p.Complete w) : p.transcript = p.course :=
  if_neg (by rw [h.setback]; nofun)

theorem Complete.through {w : Wired α ω} (h : p.Complete w) (hcrew : c.crew = [])
    (hex : w.Exited w.handles) : p.Through c w .sent p.course :=
  ⟨hcrew, hex, h.started, (if_neg (by rw [h.setback]; nofun)).symm, h.transcript.symm⟩

end Plan


/-! ## Joining -/

theorem Handle.outcome_eq (h : Handle) (panicked : Bool) (fault : Option Fault) :
    h.outcome panicked fault =
      fault.or (if panicked then some (.stagePanicked h.stage) else none) := by
  cases fault <;> cases panicked <;> rfl

namespace Custody

variable {c : Custody} {w : Wired α β} {fault : Option Fault}

theorem Joined.of_crew (h : c.crew = w.handles) : c.Joined w none :=
  ⟨[], h.symm, fun _ hm => absurd hm List.not_mem_nil, rfl⟩

/-- Joining the next thread. -/
theorem Joined.join {hd : Handle} {crew : List Handle} {panicked : Bool} {events : List Event}
    (h : c.Joined w fault) (hcrew : c.crew = hd :: crew)
    (hexit : w.exit? hd.thread = some panicked) :
    ({ c with crew }.note events).Joined w (hd.outcome panicked fault) := by
  obtain ⟨done, hhandles, hex, hfault⟩ := h
  refine ⟨done ++ [hd], ?_, fun h hm => ?_, ?_⟩
  · rw [hhandles, hcrew, List.append_assoc]; rfl
  · rcases List.mem_append.mp hm with hm | hm
    · exact hex h hm
    · rw [List.mem_singleton.mp hm, hexit]; rfl
  · rw [Handle.outcome_eq, Wired.firstPanic_append, Wired.firstPanic_singleton, hexit, hfault]
    cases panicked <;> rfl

/-- After the last join all threads have exited, and the fault is that of the first panic. -/
theorem Joined.all (h : c.Joined w fault) (hcrew : c.crew = []) :
    w.Exited w.handles ∧ fault = w.firstPanic w.handles := by
  obtain ⟨done, hhandles, hex, hfault⟩ := h
  rw [hcrew, List.append_nil] at hhandles
  exact hhandles ▸ ⟨hex, hfault⟩

end Custody

end Relay

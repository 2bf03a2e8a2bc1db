import Relay.Proofs.Invocation.Standing

/-!
# The invariant of every run

* `At.caller`: the steps of the caller keep what holds at each point, and its branches for a broken
  hand-off are dead;
* `Sound.step`, `Reaches.sound`: so every step keeps it, and it holds in every run;
* `Sound.transcript_prefix`: nothing is done out of turn.
-/

namespace Relay

variable {α β ω : Type}

/-! ## Steps of the caller -/

namespace Plan

variable {p : Plan α ω} {c : Custody}

/-- The thread of the next stage is started as well. -/
theorem Launched.snoc {γ : Type} {w : Wired α β} {st : Stage β γ} (hl : p.Launched c w)
    (ho : p.host (w.size + 1) (p.tuning.threadName st.name) = .started) :
    ∀ x ∈ p.launches (w.chain.snoc st).names, x.2 = .started := by
  rw [← w.length_names_chain] at ho
  rw [Chain.names_snoc]
  exact forall_launches_snoc hl.launches ho

/-- No stage is left to wire. -/
theorem Launched.complete {w : Wired α ω} (hl : p.Launched c w)
    (hc : w.chain = p.pipeline.chain) : p.Complete w := by
  have hlaunches : ∀ x ∈ p.launches p.pipeline.stageNames, x.2 = .started := by
    rw [Pipeline.stageNames, ← hc]; exact hl.launches
  obtain ⟨hsetback, hstarted⟩ := setback?_eq_none hlaunches
  refine ⟨hc, hsetback, ?_⟩
  rw [hstarted, Pipeline.length, ← hc, Wired.length_chain]

/-- Where the caller gives up if the thread of the next stage cannot be started. -/
theorem Launched.setback {γ : Type} {w : Wired α β} {st : Stage β γ} {rest : Chain γ ω}
    {o : SpawnOutcome} (hl : p.Launched c w)
    (hc : w.chain.append (.cons st rest) = p.pipeline.chain)
    (ho : p.host (w.size + 1) (p.tuning.threadName st.name) = o) (hne : o ≠ .started) :
    p.setback? = some (st.name, o) ∧ p.started = w.size := by
  have hsize := w.length_names_chain
  have hnames : p.pipeline.stageNames = w.chain.names ++ st.name :: rest.names := by
    rw [Pipeline.stageNames, ← hc, Chain.names_append]; rfl
  rw [← hsize] at ho ⊢
  exact setback?_eq_some hl.launches hnames ho hne

/-- The fault of the first thread that panicked is that of the stage which fails. -/
theorem Complete.firstPanic {w : Wired α ω} {s : Supply ω} {h : List Deed} (hc : p.Complete w)
    (hf : Flow p.tuning.threadName p.input .sent w s h) (hex : w.Exited w.handles) :
    w.firstPanic w.handles =
      match p.pipeline.chain.eval p.tuning.threadName p.input with
      | .ok _ => none
      | .error stage => some (.stagePanicked stage) :=
  hc.chain ▸ hf.firstPanic hex

/-- The transcript of a run whose stages are all wired. -/
theorem Complete.course {w : Wired α ω} {s : Supply ω} {h : List Deed} (hc : p.Complete w)
    (hf : Flow p.tuning.threadName p.input .sent w s h) :
    (∀ b, s.value? = some b → h ++ [.received (w.size + 1) b] = p.course) ∧
      (s = .dry → h = p.course) ∧ (s = .pending → h <+: p.course) :=
  hf.course .nil (by rw [Chain.append_nil, hc.chain]; rfl)

theorem Complete.eval_of_dry {w : Wired α ω} {h : List Deed} (hc : p.Complete w)
    (hf : Flow p.tuning.threadName p.input .sent w .dry h) :
    ∃ stage, p.pipeline.chain.eval p.tuning.threadName p.input = .error stage :=
  hc.chain ▸ hf.eval_of_dry

theorem Complete.eval_of_value {w : Wired α ω} {s : Supply ω} {h : List Deed} {b : ω}
    (hc : p.Complete w) (hf : Flow p.tuning.threadName p.input .sent w s h)
    (hs : s.value? = some b) :
    p.pipeline.chain.eval p.tuning.threadName p.input = .ok b :=
  hc.chain ▸ hf.eval_of_value hs

/-- The caller can send the input when it comes to it. -/
theorem At.sends {w : Wired α ω} {feed : Feed} {s : Supply ω} {h deeds : List Deed}
    (hat : p.At c w .sending feed s h deeds) (hf : Flow p.tuning.threadName p.input feed w s h) :
    ∃ first, w.first.send p.input = .done first := by
  cases hat with
  | sending hl hc =>
    obtain ⟨hfirst, hroom, hrec⟩ := hf.first_carries hl.receiver
    exact ⟨_, hfirst.send_pending hroom hrec _⟩

/-- A step of the caller that does nothing to a value. -/
theorem Sound.of_silent {deeds : List Deed} {u v : Invocation α ω} (hd : u.deed? .caller = none)
    (h : p.Sound deeds v) : p.Sound (deeds ++ (u.deed? .caller).toList) v := by
  rw [hd, Option.toList_none, List.append_nil]; exact h

theorem deed?_sending {w : Wired α ω} {first : Channel α}
    (h : w.first.send p.input = .done first) : p.deed? w .sending = some (.sent 0 p.input) := by
  show (w.first.send p.input).done?.map _ = _
  rw [h]; rfl

theorem deed?_receiving {w : Wired α ω} {value : ω} {last : Channel ω}
    (h : w.last.receive = .done (value, last)) :
    p.deed? w .receiving = some (.received (w.size + 1) value) := by
  show w.last.receive.done?.map _ = _
  rw [h]; rfl

theorem deed?_receiving_of_closed {w : Wired α ω} (h : w.last.receive = .closed) :
    p.deed? w .receiving = none := by
  show w.last.receive.done?.map _ = _
  rw [h]; rfl

/-- **Every step of the caller keeps the invariant.** -/
theorem At.caller {w : Wired α β} {phase : Phase α ω β} {feed : Feed} {s : Supply β}
    {h deeds : List Deed} {l l' : Ledger} {v : Invocation α ω}
    (hat : p.At c w phase feed s h deeds) (hf : Flow p.tuning.threadName p.input feed w s h)
    (hact : Invocation.Acts p l ⟨p, c, w, phase⟩ l' v) :
    p.Sound (deeds ++ ((⟨p, c, w, phase⟩ : Invocation α ω).deed? .caller).toList) v := by
  cases hact with
  | opens =>
    refine .of_silent rfl ?_
    cases hat with
    | opening hc hr =>
      subst hc
      exact ⟨rfl, _, _, _, hf, .wiring ⟨rfl, fun _ hx => absurd hx List.not_mem_nil, hr⟩ rfl⟩
  | wires =>
    refine .of_silent rfl ?_
    cases hat with
    | wiring hl hc =>
      rw [Chain.append_nil] at hc
      exact ⟨rfl, _, _, _, hf,
        .sending ⟨hl.crew, hl.launches, hl.receiver⟩ (hl.complete hc)⟩
  | adds =>
    refine .of_silent rfl ?_
    cases hat with
    | wiring hl hc =>
      exact ⟨rfl, _, _, _, hf, .spawning ⟨hl.crew, hl.launches, hl.receiver⟩ hc⟩
  | starts ho =>
    refine .of_silent rfl ?_
    cases hat with
    | spawning hl hc =>
      obtain ⟨rfl, -⟩ := hf.of_idle
      refine ⟨rfl, .idle, .pending, h ++ [], .lane hf ?_, ?_⟩
      · exact ⟨rfl, rfl, .waiting trivial, p.tuning.capacity.pos, ⟨rfl, rfl⟩, hl.receiver⟩
      · rw [List.append_nil]
        refine .wiring ⟨congrArg (· ++ _) hl.crew, hl.snoc ho, rfl⟩ ?_
        rw [Wired.chain, Chain.snoc_append, hc]
  | fails ho hne =>
    refine .of_silent rfl ?_
    cases hat with
    | spawning hl hc =>
      obtain ⟨hsetback, hstarted⟩ := hl.setback hc ho hne
      refine ⟨rfl, _, _, _, hf.closeLast, .abandoning ?_ ⟨?_, ?_⟩⟩
      · rw [Wired.mapLast, Wired.handles_setLast]; exact hl.crew
      · rw [Wired.mapLast, Wired.size_setLast, hstarted]
      · rw [hsetback]; rfl
  | sends hsend =>
    cases hat with
    | sending hl hc =>
      obtain ⟨s', hs, hf', hlast⟩ := hf.sendFirst hl.receiver hsend
      obtain ⟨-, rfl⟩ := hf.of_idle
      rw [Invocation.deed?, deed?_sending hsend]
      exact ⟨rfl, _, _, _, hf', .closingFirst (hl.mapFirst (hlast.trans hl.receiver.symm))
        hc.mapFirst hs⟩
  | sendsNot hsend =>
    obtain ⟨first, hfirst⟩ := hat.sends hf
    rw [hfirst] at hsend
    cases hsend
  | closesFirst =>
    refine .of_silent rfl ?_
    cases hat with
    | closingFirst hl hc hs =>
      obtain ⟨s', hgrow, hf', hlast⟩ := hf.closeFirst
      exact ⟨rfl, _, _, _, hf', .receiving (hl.mapFirst hlast) hc.mapFirst (hgrow.untaken hs)⟩
  | @receives _ _ value _ hr =>
    cases hat with
    | receiving hl hc hs =>
      rw [Invocation.deed?, deed?_receiving hr]
      have hlast := hf.carries
      cases s with
      | pending => rw [hlast.receive_pending] at hr; cases hr
      | spent b => cases hs
      | dry => rw [hlast.receive_dry] at hr; cases hr
      | ready b =>
        rw [hlast.receive_ready] at hr
        cases hr
        refine ⟨rfl, _, .spent value, h, hf.setLast (.inr ⟨value, rfl, rfl⟩) rfl rfl, ?_⟩
        rw [Option.toList_some, (hc.course hf).1 value rfl]
        exact .closingLast (by rw [Wired.handles_setLast]; exact hl.crew) hc.setLast .value
  | receivesNot hr =>
    cases hat with
    | receiving hl hc hs =>
      refine .of_silent (deed?_receiving_of_closed (p := p) hr) ?_
      have hlast := hf.carries
      cases s with
      | pending => rw [hlast.receive_pending] at hr; cases hr
      | ready b => rw [hlast.receive_ready] at hr; cases hr
      | spent b => cases hs
      | dry =>
        refine ⟨rfl, _, _, _, hf, ?_⟩
        rw [(hc.course hf).2.1 rfl]
        exact .closingLast hl.crew hc .nothing
  | closesLast =>
    refine .of_silent rfl ?_
    cases hat with
    | closingLast hcrew hc hy =>
      refine ⟨rfl, _, _, _, hf.closeLast, .joining (.of_crew ?_) hc.setLast hy⟩
      rw [Wired.mapLast, Wired.handles_setLast]; exact hcrew
  | joins hcrew hexit =>
    refine .of_silent rfl ?_
    cases hat with
    | joining hj hc hy => exact ⟨rfl, _, _, _, hf, .joining (hj.join hcrew hexit) hc hy⟩
  | reports hcrew =>
    refine .of_silent rfl ?_
    cases hat with
    | joining hj hc hy =>
      exact ⟨rfl, _, _, _, hf, .dropping (hc.through hcrew (hj.all hcrew).1)⟩
  | concludes hcrew =>
    refine .of_silent rfl ?_
    cases hat with
    | joining hj hc hy =>
      cases hy with
      | value =>
        exact ⟨rfl, _, _, _, hf, .disposing hcrew (hj.all hcrew).1 hc (hc.eval_of_value hf rfl)⟩
  | misses hcrew =>
    refine .of_silent rfl ?_
    cases hat with
    | joining hj hc hy =>
      exact ⟨rfl, _, _, _, hf, .dropping (hc.through hcrew (hj.all hcrew).1)⟩
  | disposes hrecords hdispose =>
    refine .of_silent rfl ?_
    cases hat with
    | disposing hcrew hex hc heval => exact ⟨rfl, _, _, _, hf, .disposing hcrew hex hc heval⟩
  | disposesNot hrecords hdispose =>
    refine .of_silent rfl ?_
    cases hat with
    | disposing hcrew hex hc heval =>
      exact ⟨rfl, _, _, _, hf, .dropping (hc.through hcrew hex)⟩
  | returns hrecords =>
    refine .of_silent rfl ?_
    cases hat with
    | disposing hcrew hex hc heval =>
      exact ⟨rfl, _, _, _, hf, .finished (hc.through hcrew hex)⟩
  | forsakes => cases hat
  | abandons =>
    refine .of_silent rfl ?_
    cases hat with
    | abandoning hcrew hg =>
      obtain ⟨s', hf'⟩ := hf.cutFirst
      refine ⟨rfl, _, _, _, hf', .reaping (.of_crew ?_) hg.mapFirst⟩
      rw [Wired.handles_mapFirst]; exact hcrew
  | reaps hcrew hexit =>
    refine .of_silent rfl ?_
    cases hat with
    | reaping hj hg => exact ⟨rfl, _, _, _, hf, .reaping (hj.join hcrew hexit) hg⟩
  | reaped hcrew =>
    refine .of_silent rfl ?_
    cases hat with
    | reaping hj hg =>
      obtain rfl := (hf.of_unsent (by decide)).1
      exact ⟨rfl, _, _, _, hf, .dropping (hg.through hcrew (hj.all hcrew).1)⟩
  | drops hrecords =>
    refine .of_silent rfl ?_
    cases hat with
    | dropping ht =>
      exact ⟨rfl, _, _, _, hf, .dropping ⟨ht.crew, ht.exited, ht.started, ht.feed, ht.transcript⟩⟩
  | ends hrecords =>
    refine .of_silent rfl ?_
    cases hat with
    | dropping ht => exact ⟨rfl, _, _, _, hf, .finished ht⟩

/-! ## Runs -/

/-- The caller keeps the receiving end of the last channel as long as something may come. -/
theorem At.receiver {w : Wired α β} {phase : Phase α ω β} {h deeds : List Deed}
    (hat : p.At c w phase .sent .pending h deeds)
    (hf : Flow p.tuning.threadName p.input .sent w .pending h) : w.last.receiver = true := by
  cases hat with
  | closingFirst hl | receiving hl => exact hl.receiver
  | closingLast _ _ hy | joining _ _ hy => cases hy
  | disposing _ hex => exact absurd rfl (hf.ne_pending_of_exited (by decide) hex)
  | dropping ht | finished ht => exact absurd rfl (hf.ne_pending_of_exited (by decide) ht.exited)

theorem Sound.start : p.Sound [] p.start :=
  ⟨rfl, .idle, .pending, [], .entry .idle p.tuning.capacity.pos ⟨rfl, rfl⟩, .opening rfl rfl⟩

/-- **Every step keeps the invariant**, and writes the transcript on. -/
theorem Sound.step {deeds : List Deed} {move : Move} {l l' : Ledger} {v v' : Invocation α ω}
    (h : p.Sound deeds v) (hstep : v.step move l = some (l', v')) :
    p.Sound (deeds ++ (v.deed? move).toList) v' := by
  obtain ⟨rfl, feed, s, own, hf, hat⟩ := h
  rcases Invocation.step_cases hstep with ⟨rfl, hact⟩ | ⟨i, w, rfl, hw, -, rfl⟩
  · exact hat.caller hf hact
  · obtain ⟨s', hgrow, hlast, hquiet, hf'⟩ := hf.step
      (fun hfeed hs => by subst hfeed hs; exact hat.receiver hf) hw
    exact ⟨rfl, feed, s', _, hf', hat.thread hw hgrow hlast hquiet⟩

/-- **The invariant holds in every run.** -/
theorem Reaches.sound {l₀ l : Ledger} {schedule : List Move} {deeds : List Deed}
    {v : Invocation α ω} (h : p.Reaches l₀ schedule deeds l v) : p.Sound deeds v := by
  induction h with
  | start => exact .start
  | step move _ hstep ih => exact ih.step hstep

/-! ## Transcripts -/

/-- While the result is awaited, the transcript is that of a course, as far as it goes. -/
theorem Complete.transcript_prefix {w : Wired α ω} {s : Supply ω} {h : List Deed}
    (hc : p.Complete w) (hf : Flow p.tuning.threadName p.input .sent w s h) :
    h <+: p.transcript := by
  rw [hc.transcript]
  obtain ⟨hvalue, hdry, hpending⟩ := hc.course hf
  cases s with
  | pending => exact hpending rfl
  | ready b | spent b => exact ⟨_, hvalue b rfl⟩
  | dry => exact hdry rfl ▸ List.prefix_refl h

theorem At.transcript_prefix {w : Wired α β} {phase : Phase α ω β} {feed : Feed} {s : Supply β}
    {h deeds : List Deed} (hat : p.At c w phase feed s h deeds)
    (hf : Flow p.tuning.threadName p.input feed w s h) : deeds <+: p.transcript := by
  cases hat with
  | opening => exact List.nil_prefix
  | wiring | spawning | sending | abandoning =>
    obtain ⟨-, rfl⟩ := hf.of_idle
    exact List.nil_prefix
  | reaping =>
    obtain rfl := (hf.of_unsent (by decide)).1
    exact List.nil_prefix
  | closingFirst hl hc | receiving hl hc => exact hc.transcript_prefix hf
  | closingLast _ hc | joining _ hc | disposing _ _ hc =>
    exact hc.transcript ▸ List.prefix_refl p.course
  | dropping ht | finished ht => exact ht.transcript ▸ List.prefix_refl deeds

/-- **Nothing is done out of turn**: a transcript is that of a whole run, as far as it goes. -/
theorem Sound.transcript_prefix {deeds : List Deed} {v : Invocation α ω} (hs : p.Sound deeds v) :
    deeds <+: p.transcript := by
  obtain ⟨-, feed, s, h, hf, hat⟩ := hs
  exact hat.transcript_prefix hf

theorem At.transcript_of_ended {w : Wired α β} {phase : Phase α ω β} {feed : Feed} {s : Supply β}
    {h deeds : List Deed} {e : Ending ω} (hat : p.At c w phase feed s h deeds)
    (hend : (⟨p, c, w, phase⟩ : Invocation α ω).ending? = some e) : deeds = p.transcript := by
  cases hat with
  | finished ht => exact ht.transcript
  | _ => cases hend

theorem Sound.transcript_of_ended {deeds : List Deed} {v : Invocation α ω} {e : Ending ω}
    (hs : p.Sound deeds v) (hend : v.ending? = some e) : deeds = p.transcript := by
  obtain ⟨rfl, feed, s, h, hf, hat⟩ := hs
  exact hat.transcript_of_ended hend

/-- Nothing is sent in a run that cannot start all threads. -/
theorem At.unsent {w : Wired α β} {phase : Phase α ω β} {feed : Feed} {s : Supply β}
    {h deeds : List Deed} (hat : p.At c w phase feed s h deeds) (hsetback : p.setback?.isSome) :
    feed ≠ .sent := by
  cases hat with
  | opening | wiring | spawning | sending | abandoning | reaping => decide
  | closingFirst _ hc | receiving _ hc | closingLast _ hc | joining _ hc | disposing _ _ hc =>
    rw [hc.setback] at hsetback; cases hsetback
  | dropping ht | finished ht => rw [ht.feed, if_pos hsetback]; decide

end Plan

end Relay

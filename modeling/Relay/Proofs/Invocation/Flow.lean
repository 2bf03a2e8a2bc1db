import Relay.Proofs.Invocation.Transcript

/-!
# One value on its way through the wired stages

`Flow` is the invariant of the channels and stage threads of one run. It follows the one value that
the caller sends through the lanes: each lane has its place in the passage of the value
(`Lane.Stand`), which fixes how far its thread is, what it has done, and what there is to expect of
the channel before it and of the one after it (`Supply`).

* `Flow.sendFirst`, `Flow.closeFirst`, `Flow.cutFirst`, `Flow.setLast`: what the caller does at the
  two ends keeps it;
* `Flow.step`: so does a step of any thread, which writes the transcript on.
-/

namespace Relay

variable {α β γ ω : Type}

/-- What the reader of a channel is to expect of it. -/
inductive Supply (β : Type) where
  /-- A value may still come. -/
  | pending
  /-- The value has come, and waits. -/
  | ready (b : β)
  /-- The value was taken. -/
  | spent (b : β)
  /-- No value came, and none will. -/
  | dry

namespace Supply

/-- The value, once it has come. -/
def value? : Supply β → Option β
  | .ready b | .spent b => some b
  | _ => none

/-- The reader has taken nothing yet. -/
def Untaken : Supply β → Prop
  | .spent _ => False
  | _ => True

/-- What the parties on the sender's side may make of an expectation: only a pending one changes. -/
def Grows (s s' : Supply β) : Prop := s' = s ∨ s = .pending ∧ s'.Untaken

theorem dry_ne_pending : (dry : Supply β) ≠ .pending := nofun

theorem Grows.refl (s : Supply β) : s.Grows s := .inl rfl

theorem Grows.untaken {s s' : Supply β} (h : s.Grows s') (hs : s.Untaken) : s'.Untaken := by
  rcases h with rfl | ⟨-, h⟩
  · exact hs
  · exact h

end Supply

namespace Channel

/-- The channel bears an expectation out. -/
def Carries (c : Channel β) : Supply β → Prop
  | .pending => c.queue = [] ∧ c.sender = true
  | .ready b => c.queue = [b]
  | .spent _ => c.queue = []
  | .dry => c.queue = [] ∧ c.sender = false

variable {c : Channel β} {b : β}

theorem Carries.receive_ready (h : c.Carries (.ready b)) :
    c.receive = .done (b, { c with queue := [] }) := by
  simp only [Carries] at h
  simp only [receive, h]

theorem Carries.receive_pending (h : c.Carries .pending) : c.receive = .blocked := by
  simp only [receive, h.1, h.2, ite_true]

theorem Carries.receive_dry (h : c.Carries .dry) : c.receive = .closed := by
  simp only [receive, h.1, h.2, Bool.false_eq_true, ite_false]

theorem Carries.send_pending (h : c.Carries .pending) (hroom : 1 ≤ c.capacity)
    (hr : c.receiver = true) (b : β) : c.send b = .done { c with queue := [b] } := by
  have hlt : c.queue.length < c.capacity := by rw [h.1]; exact hroom
  rw [send, if_pos hr, if_pos hlt, h.1]; rfl

theorem Carries.closeReceiver {s : Supply β} (h : c.Carries s) : c.closeReceiver.Carries s := by
  cases s <;> exact h

/-- What has come of a channel does not go away with its sender. -/
theorem Carries.closeSender {s : Supply β} (h : c.Carries s) (hs : s.value? = some b) :
    c.closeSender.Carries s := by
  cases s with
  | pending => cases hs
  | ready b => exact h
  | spent b => exact h
  | dry => cases hs

end Channel

/-- Where the lane of a stage stands in the passage of the value: how far its thread is, how often
it applied its function, what it has reported, what there is to expect of its input and of its
output, and what it has done to the value. -/
inductive Lane.Stand (s : Stage β γ) (place : Nat) (thread : String) :
    Worker β γ → Nat → List StageNote → Supply β → Supply γ → List Deed → Prop where
  | waiting {r : Supply β} : r.Untaken → Stand s place thread .waiting 0 [] r .pending []
  | holding {a : β} :
    Stand s place thread (.holding a) 0 [.received] (.spent a) .pending [.received place a]
  | sending {a : β} {b : γ} : s.body thread a = some b →
    Stand s place thread (.sending b) 1 [.received] (.spent a) .pending
      [.received place a, .applied place thread a]
  | serving {a : β} {b : γ} {out : Supply γ} : s.body thread a = some b → out.value? = some b →
    Stand s place thread (.leaving false) 1 [.received, .sent] (.spent a) out
      [.received place a, .applied place thread a, .sent place b]
  | served {a : β} {b : γ} {out : Supply γ} : s.body thread a = some b → out.value? = some b →
    Stand s place thread (.exited false) 1 [.received, .sent] (.spent a) out
      [.received place a, .applied place thread a, .sent place b]
  | panicking {a : β} : s.body thread a = none →
    Stand s place thread (.leaving true) 1 [.received] (.spent a) .pending
      [.received place a, .applied place thread a]
  | panicked {a : β} : s.body thread a = none →
    Stand s place thread (.exited true) 1 [.received] (.spent a) .dry
      [.received place a, .applied place thread a]
  | starving : Stand s place thread (.leaving false) 0 [.upstreamClosed] .dry .pending []
  | starved : Stand s place thread (.exited false) 0 [.upstreamClosed] .dry .dry []

/-- A lane is in its place after the stages of `w`, and stands in the passage of the value as its
channels say. -/
structure Lane.Fits (threadName : String → String) (w : Wired α β) (l : Lane β γ) (r : Supply β)
    (s : Supply γ) (own : List Deed) : Prop where
  index : l.index = w.size + 1
  thread : l.thread = threadName l.stage.name
  stand : Stand l.stage l.index l.thread l.worker l.calls l.notes r s own
  room : 1 ≤ l.out.capacity
  carries : l.out.Carries s
  /-- The lane keeps the receiving end of its input as long as its thread runs. -/
  receiver : w.last.receiver = l.worker.exit?.isNone

/-- What the caller has done with the input. -/
inductive Feed where
  /-- Not sent it yet. -/
  | idle
  | sent
  /-- Closed the first channel without sending. -/
  | cut
  deriving DecidableEq

/-- What there is to expect of the first channel, and the caller's share of the transcript. -/
inductive Feed.Gives (x : α) : Feed → Supply α → List Deed → Prop where
  | idle : Gives x .idle .pending []
  | ready : Gives x .sent (.ready x) [.sent 0 x]
  | spent : Gives x .sent (.spent x) [.sent 0 x]
  | cut : Gives x .cut .dry []

/-- The passage of the input `x` through the wired stages: what there is to expect of the last
channel, and the transcript. -/
inductive Flow (threadName : String → String) (x : α) (feed : Feed) :
    {β : Type} → Wired α β → Supply β → List Deed → Prop where
  | entry {c : Channel α} {s : Supply α} {h : List Deed} : feed.Gives x s h → 1 ≤ c.capacity →
    c.Carries s → Flow threadName x feed (.entry c) s h
  | lane {β γ : Type} {w : Wired α β} {l : Lane β γ} {r : Supply β} {s : Supply γ}
    {h own : List Deed} : Flow threadName x feed w r h → l.Fits threadName w r s own →
    Flow threadName x feed (.lane w l) s (h ++ own)

/-! ## The step of one thread -/

namespace Lane

section Stand

variable {st : Stage β γ} {place calls : Nat} {thread : String} {worker : Worker β γ}
  {notes : List StageNote} {r r' : Supply β} {s : Supply γ} {own : List Deed}

/-- A lane with a pending input has not begun, so it can wait for whatever comes of the input. -/
theorem Stand.grow (h : Stand st place thread worker calls notes r s own) (hr : r.Grows r') :
    Stand st place thread worker calls notes r' s own := by
  rcases hr with rfl | ⟨rfl, hr⟩
  · exact h
  · cases h with | waiting => exact .waiting hr

/-- Whether the result of a lane was taken makes no difference to the lane. -/
theorem Stand.take {b : γ} (h : Stand st place thread worker calls notes r (.ready b) own) :
    Stand st place thread worker calls notes r (.spent b) own := by
  cases h with
  | serving hb ho => exact .serving hb ho
  | served hb ho => exact .served hb ho

theorem Stand.waiting_of_pending (h : Stand st place thread worker calls notes .pending s own) :
    worker = .waiting ∧ s = .pending ∧ own = [] := by
  cases h with | waiting => exact ⟨rfl, rfl, rfl⟩

theorem Stand.body_of_value {b : γ} (h : Stand st place thread worker calls notes r s own)
    (hs : s.value? = some b) : ∃ a, r.value? = some a ∧ st.body thread a = some b := by
  cases h with
  | @serving a b' _ hb ho | @served a b' _ hb ho =>
    rw [ho, Option.some.injEq] at hs
    exact ⟨a, rfl, hs ▸ hb⟩
  | _ => cases hs

/-- A thread that waits receives the value, or learns that none will come. -/
theorem Stand.receive {worker' : Worker β γ} {source source' : Channel β} {note : StageNote}
    (h : Stand st place thread .waiting calls notes r s own) (hc : source.Carries r)
    (hw : Worker.receive source = some (worker', source', note)) :
    ∃ r', (r' = r ∨ ∃ a, r = .ready a ∧ r' = .spent a) ∧ source'.Carries r' ∧
      source'.capacity = source.capacity ∧ source'.receiver = source.receiver ∧
      worker'.exit? = none ∧ s = .pending ∧
      Stand st place thread worker' calls (notes ++ [note]) r' s
        (own ++ (source.receive.done?.map fun x => Deed.received place x.1).toList) := by
  cases h with
  | waiting hr =>
    cases r with
    | pending => simp [Worker.receive, hc.receive_pending] at hw
    | spent b => cases hr
    | ready a =>
      simp only [Worker.receive, hc.receive_ready, Option.some.injEq, Prod.mk.injEq] at hw
      obtain ⟨rfl, rfl, rfl⟩ := hw
      rw [hc.receive_ready]
      exact ⟨.spent a, .inr ⟨a, rfl, rfl⟩, rfl, rfl, rfl, rfl, rfl, .holding⟩
    | dry =>
      simp only [Worker.receive, hc.receive_dry, Option.some.injEq, Prod.mk.injEq] at hw
      obtain ⟨rfl, rfl, rfl⟩ := hw
      rw [hc.receive_dry]
      exact ⟨.dry, .inl rfl, hc, rfl, rfl, rfl, rfl, .starving⟩

/-- A thread that holds a value applies its function. -/
theorem Stand.compute {a : β} (h : Stand st place thread (.holding a) calls notes r s own) :
    (Worker.compute st thread a).exit? = none ∧ s = .pending ∧
      Stand st place thread (.compute st thread a) (calls + 1) notes r s
        (own ++ [.applied place thread a]) := by
  cases h with
  | holding =>
    rw [Worker.compute]
    cases hb : st.body thread a with
    | some b => exact ⟨rfl, rfl, .sending hb⟩
    | none => exact ⟨rfl, rfl, .panicking hb⟩

/-- A thread that has a result sends it, if there is a reader. -/
theorem Stand.deliver {b : γ} {worker' : Worker β γ} {target target' : Channel γ}
    {note : StageNote} (h : Stand st place thread (.sending b) calls notes r s own)
    (hc : target.Carries s) (hroom : 1 ≤ target.capacity)
    (hrec : ∀ a, r = .spent a → s = .pending → target.receiver = true)
    (hw : Worker.deliver b target = some (worker', target', note)) :
    ∃ s', s = .pending ∧ s'.Untaken ∧ target'.Carries s' ∧
      target'.capacity = target.capacity ∧ target'.receiver = target.receiver ∧
      worker'.exit? = none ∧
      Stand st place thread worker' calls (notes ++ [note]) r s'
        (own ++ ((target.send b).done?.map fun _ => Deed.sent place b).toList) := by
  cases h with
  | @sending a _ hb =>
    have hsend := hc.send_pending hroom (hrec a rfl rfl) b
    simp only [Worker.deliver, hsend, Option.some.injEq, Prod.mk.injEq] at hw
    obtain ⟨rfl, rfl, rfl⟩ := hw
    rw [hsend]
    exact ⟨.ready b, rfl, trivial, rfl, rfl, rfl, rfl, .serving hb rfl⟩

/-- A thread that leaves closes its output, of which nothing more is to be expected then. -/
theorem Stand.leave {panicked : Bool}
    (h : Stand st place thread (.leaving panicked) calls notes r s own) :
    ∃ s', s.Grows s' ∧ (∀ c : Channel γ, c.Carries s → c.closeSender.Carries s') ∧
      Stand st place thread (.exited panicked) calls notes r s' own := by
  cases h with
  | serving hb ho => exact ⟨_, .refl _, fun c hc => hc.closeSender ho, .served hb ho⟩
  | panicking hb =>
    exact ⟨.dry, .inr ⟨rfl, trivial⟩, fun c hc => ⟨hc.1, rfl⟩, .panicked hb⟩
  | starving => exact ⟨.dry, .inr ⟨rfl, trivial⟩, fun c hc => ⟨hc.1, rfl⟩, .starved⟩

end Stand

variable {t : String → String} {w w' : Wired α β} {l l' : Lane β γ} {r r' : Supply β} {s : Supply γ}
  {own : List Deed} {c : Channel β}

theorem Fits.grow (hf : l.Fits t w r s own) (hr : r.Grows r') (hsize : w'.size = w.size)
    (hlast : w'.last.receiver = w.last.receiver) : l.Fits t w' r' s own :=
  ⟨hsize ▸ hf.index, hf.thread, hf.stand.grow hr, hf.room, hf.carries, hlast ▸ hf.receiver⟩

/-- A lane with a pending input keeps the receiving end of it. -/
theorem Fits.receiver_of_pending (hf : l.Fits t w .pending s own) : w.last.receiver = true := by
  rw [hf.receiver, hf.stand.waiting_of_pending.1]; rfl

/-- What a step of the thread of a lane comes to, as long as a result that it holds can be sent. -/
theorem Fits.step (hf : l.Fits t w r s own) (hc : w.last.Carries r)
    (hrec : ∀ a, r = .spent a → s = .pending → l.out.receiver = true)
    (hs : l.step w.last = some (l', c)) :
    ∃ r' s', (r' = r ∨ ∃ a, r = .ready a ∧ r' = .spent a) ∧ s.Grows s' ∧
      c.capacity = w.last.capacity ∧ c.Carries r' ∧ l'.out.receiver = l.out.receiver ∧
      (s = .pending ∨ l.deed? w.last = none) ∧
      l'.Fits t (w.setLast c) r' s' (own ++ (l.deed? w.last).toList) := by
  obtain ⟨stage, index, thread, out, worker, calls, notes⟩ := l
  obtain ⟨hindex, hthread, hstand, hroom, hout, hreceiver⟩ := hf
  simp only at hindex hthread hstand hroom hout hreceiver hrec
  rw [← Wired.size_setLast w c] at hindex
  cases worker with
  | waiting =>
    obtain ⟨⟨worker, source, note⟩, hw, he⟩ := Option.map_eq_some_iff.mp hs
    cases he
    obtain ⟨r', hr, hc', hcap, hsource, hexit, hpending, hstand'⟩ := hstand.receive hc hw
    refine ⟨r', s, hr, .refl _, hcap, hc', rfl, .inl hpending, hindex, hthread, hstand', hroom,
      hout, ?_⟩
    rw [Wired.last_setLast, hsource, hreceiver]
    simp only [hexit]; rfl
  | holding a =>
    cases hs
    obtain ⟨hexit, hpending, hstand'⟩ := hstand.compute
    refine ⟨r, s, .inl rfl, .refl _, rfl, hc, rfl, .inl hpending, hindex, hthread, hstand', hroom,
      hout, ?_⟩
    rw [Wired.last_setLast, hreceiver]
    simp only [hexit]; rfl
  | sending b =>
    obtain ⟨⟨worker, target, note⟩, hw, he⟩ := Option.map_eq_some_iff.mp hs
    cases he
    obtain ⟨s', rfl, hs', hout', hcap, htarget, hexit, hstand'⟩ :=
      hstand.deliver hout hroom hrec hw
    refine ⟨r, s', .inl rfl, .inr ⟨rfl, hs'⟩, rfl, hc, htarget, .inl rfl, hindex, hthread, hstand',
      hcap ▸ hroom, hout', ?_⟩
    rw [Wired.last_setLast, hreceiver]
    simp only [hexit]; rfl
  | leaving panicked =>
    cases hs
    obtain ⟨s', hgrow, hclose, hstand'⟩ := hstand.leave
    refine ⟨r, s', .inl rfl, hgrow, rfl, hc.closeReceiver, rfl, .inr rfl, hindex, hthread, ?_,
      hroom, hclose out hout, by rw [Wired.last_setLast]; rfl⟩
    rw [deed?, Option.toList_none, List.append_nil]
    exact hstand'
  | exited panicked => cases hs

end Lane

/-! ## What is done at the two ends -/

namespace Flow

variable {t : String → String} {x : α} {feed : Feed} {w w' : Wired α β} {r s : Supply β}
  {h : List Deed}

theorem room (hf : Flow t x feed w s h) : 1 ≤ w.last.capacity := by
  cases hf with
  | entry _ hroom _ => exact hroom
  | lane _ hl => exact hl.room

theorem carries (hf : Flow t x feed w s h) : w.last.Carries s := by
  cases hf with
  | entry _ _ hc => exact hc
  | lane _ hl => exact hl.carries

/-- The reader of the last channel changes that channel: it may take a value that has come. -/
theorem setLast {c : Channel β} {s' : Supply β} (hf : Flow t x feed w s h)
    (hs : s' = s ∨ ∃ b, s = .ready b ∧ s' = .spent b) (hcap : c.capacity = w.last.capacity)
    (hc : c.Carries s') : Flow t x feed (w.setLast c) s' h := by
  cases hf with
  | entry hg hroom _ =>
    refine .entry ?_ (hcap ▸ hroom) hc
    rcases hs with rfl | ⟨b, rfl, rfl⟩
    · exact hg
    · cases hg; exact .spent
  | lane hw hl =>
    refine .lane hw ⟨hl.index, hl.thread, ?_, hcap ▸ hl.room, hc, hl.receiver⟩
    rcases hs with rfl | ⟨b, rfl, rfl⟩
    · exact hl.stand
    · exact hl.stand.take

theorem closeLast (hf : Flow t x feed w s h) :
    Flow t x feed (w.mapLast .closeReceiver) s h :=
  hf.setLast (.inl rfl) rfl hf.carries.closeReceiver

/-- The caller changes the first channel. -/
theorem mapFirst (hf : Flow t x feed w s h) (feed' : Feed) (f : Channel α → Channel α)
    (d : List Deed)
    (hfirst : ∀ {s h}, feed.Gives x s h → 1 ≤ w.first.capacity → w.first.Carries s →
      ∃ s', s.Grows s' ∧ feed'.Gives x s' (d ++ h) ∧ (f w.first).Carries s' ∧
        (f w.first).capacity = w.first.capacity ∧ (f w.first).receiver = w.first.receiver) :
    ∃ s', s.Grows s' ∧ Flow t x feed' (w.mapFirst f) s' (d ++ h) ∧
      (w.mapFirst f).last.receiver = w.last.receiver := by
  induction hf with
  | entry hg hroom hc =>
    obtain ⟨s', hs, hg', hc', hcap, hr⟩ := hfirst hg hroom hc
    exact ⟨s', hs, .entry hg' (hcap ▸ hroom) hc', hr⟩
  | lane hw hl ih =>
    obtain ⟨r', hr, hw', hlast⟩ := ih hfirst
    refine ⟨_, .refl _, ?_, rfl⟩
    rw [← List.append_assoc]
    exact .lane hw' (hl.grow hr (Wired.size_mapFirst _ _) hlast)

/-- Nothing moves before the caller does. -/
theorem of_idle (hf : Flow t x .idle w s h) : s = .pending ∧ h = [] := by
  induction hf with
  | entry hg _ _ => cases hg; exact ⟨rfl, rfl⟩
  | lane hw hl ih =>
    obtain ⟨rfl, rfl⟩ := ih
    obtain ⟨-, rfl, rfl⟩ := hl.stand.waiting_of_pending
    exact ⟨rfl, rfl⟩

/-- The first channel is empty and has its reader when the caller is to send. -/
theorem first_carries (hf : Flow t x .idle w s h) (hr : w.last.receiver = true) :
    w.first.Carries .pending ∧ 1 ≤ w.first.capacity ∧ w.first.receiver = true := by
  induction hf with
  | entry hg hroom hc => cases hg; exact ⟨hc, hroom, hr⟩
  | lane hw hl ih =>
    obtain ⟨rfl, -⟩ := hw.of_idle
    exact ih hl.receiver_of_pending

theorem sendFirst {first : Channel α} (hf : Flow t x .idle w s h) (hr : w.last.receiver = true)
    (hsend : w.first.send x = .done first) :
    ∃ s', s'.Untaken ∧ Flow t x .sent (w.mapFirst fun _ => first) s' [.sent 0 x] ∧
      (w.mapFirst fun _ => first).last.receiver = true := by
  obtain ⟨hc, hroom, hrec⟩ := hf.first_carries hr
  obtain ⟨rfl, rfl⟩ := hf.of_idle
  rw [hc.send_pending hroom hrec] at hsend
  cases hsend
  obtain ⟨s', hgrow, hf', hlast⟩ := hf.mapFirst .sent
    (fun _ => { w.first with queue := [x] }) [.sent 0 x] fun hg _ _ => by
      cases hg
      exact ⟨.ready x, .inr ⟨rfl, trivial⟩, .ready, rfl, rfl, rfl⟩
  exact ⟨s', hgrow.untaken trivial, hf', hlast.trans hr⟩

/-- After sending, the caller may close its end of the first channel. -/
theorem closeFirst (hf : Flow t x .sent w s h) :
    ∃ s', s.Grows s' ∧ Flow t x .sent (w.mapFirst .closeSender) s' h ∧
      (w.mapFirst .closeSender).last.receiver = w.last.receiver :=
  hf.mapFirst .sent .closeSender [] fun hg _ hc => by
    cases hg with
    | ready => exact ⟨_, .refl _, .ready, hc.closeSender rfl, rfl, rfl⟩
    | spent => exact ⟨_, .refl _, .spent, hc.closeSender rfl, rfl, rfl⟩

/-- The caller may close its end of the first channel without sending. -/
theorem cutFirst (hf : Flow t x .idle w s h) :
    ∃ s', Flow t x .cut (w.mapFirst .closeSender) s' h := by
  obtain ⟨s', -, hf', -⟩ := hf.mapFirst .cut .closeSender [] fun hg _ hc => by
    cases hg
    exact ⟨.dry, .inr ⟨rfl, trivial⟩, .cut, ⟨hc.1, rfl⟩, rfl, rfl⟩
  exact ⟨s', hf'⟩

/-! ## Steps of threads -/

/-- A value comes out only if the caller has sent one. -/
theorem sent_of_value {b : β} (hf : Flow t x feed w s h) (hs : s.value? = some b) :
    feed = .sent := by
  induction hf with
  | entry hg _ _ => cases hg <;> first | rfl | cases hs
  | lane hw hl ih =>
    obtain ⟨a, ha, -⟩ := hl.stand.body_of_value hs
    exact ih ha

/-- **Every step of a thread keeps the flow.** It writes the transcript on, and it does something to
the value only while nothing has come out yet. -/
theorem step {i : Nat} (hf : Flow t x feed w s h)
    (hrec : feed = .sent → s = .pending → w.last.receiver = true) (hs : w.step i = some w') :
    ∃ s', s.Grows s' ∧ w'.last.receiver = w.last.receiver ∧ (s = .pending ∨ w.deed? i = none) ∧
      Flow t x feed w' s' (h ++ (w.deed? i).toList) := by
  induction hf with
  | entry => cases hs
  | @lane _ _ w l r s h own hw hl ih =>
    obtain ⟨l', c, rfl, hstep, rfl⟩ | ⟨w'', hi, hstep, rfl⟩ := Wired.step_lane hs
    · obtain ⟨r', s', hr, hgrow, hcap, hc, hlast, hquiet, hl'⟩ := hl.step hw.carries
        (fun a ha => hrec (hw.sent_of_value (b := a) (by rw [ha]; rfl))) hstep
      refine ⟨s', hgrow, hlast, ?_, ?_⟩
      · rw [Wired.deed?, if_pos rfl]; exact hquiet
      · rw [Wired.deed?, if_pos rfl, List.append_assoc]
        exact .lane (hw.setLast hr hcap hc) hl'
    · obtain ⟨r', hr, hlast, hquiet, hw'⟩ := ih
        (fun _ hp => by subst hp; exact hl.receiver_of_pending) hstep
      have hl' := hl.grow hr (Wired.size_step hstep) hlast
      refine ⟨s, .refl _, rfl, ?_, ?_⟩ <;> rw [Wired.deed?, if_neg hi]
      · exact hquiet.imp (fun hp => by subst hp; exact hl.stand.waiting_of_pending.2.1) id
      · -- the lane has its share of the transcript only after those before it are done
        have hown : own = [] ∨ w.deed? i = none :=
          hquiet.imp (fun hp => by subst hp; exact hl.stand.waiting_of_pending.2.2) id
        have := Flow.lane hw' hl'
        rcases hown with rfl | hd
        · simpa using this
        · simpa [hd] using this

end Flow

end Relay

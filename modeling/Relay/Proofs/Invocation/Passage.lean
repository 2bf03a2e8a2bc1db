import Relay.Proofs.Invocation.Flow

/-!
# What follows from the flow of the value

* `Flow.exists_step`: once the caller has sent or gone, some thread can move until all have exited;
* `Flow.eval_of_value`, `Flow.eval_of_dry`: what comes out, or does not, is what the stages make of
  the input;
* `Flow.course`: the transcript is that of stages that work one after the other;
* `Flow.firstPanic`: the first thread that panicked is that of the stage which fails;
* `Flow.payloads`, `Flow.sends`: there is never more than one value on its way, and whoever has a
  value to send can send it.
-/

namespace Relay

variable {α β γ ω : Type}

/-! ## Progress -/

theorem Channel.Carries.send_ne_blocked {c : Channel β} (h : c.Carries .pending)
    (hroom : 1 ≤ c.capacity) (b : β) : c.send b ≠ .blocked := by
  cases hr : c.receiver with
  | true => rw [h.send_pending hroom hr]; nofun
  | false => simp [send, hr]

theorem Channel.Carries.receive_ne_blocked {c : Channel β} {s : Supply β} (h : c.Carries s)
    (hs : s.Untaken) (hne : s ≠ .pending) : c.receive ≠ .blocked := by
  cases s with
  | pending => exact absurd rfl hne
  | ready b => rw [h.receive_ready]; nofun
  | spent b => cases hs
  | dry => rw [h.receive_dry]; nofun

/-- A thread whose input is settled can move, or has exited. -/
theorem Lane.Fits.step_or_exited {t : String → String} {w : Wired α β} {l : Lane β γ}
    {r : Supply β} {s : Supply γ} {own : List Deed} (hf : l.Fits t w r s own)
    (hc : w.last.Carries r) (hr : r ≠ .pending) :
    (l.step w.last).isSome ∨ s ≠ .pending ∧ l.worker.exit?.isSome := by
  obtain ⟨stage, index, thread, out, worker, calls, notes⟩ := l
  obtain ⟨-, -, hstand, hroom, hout, -⟩ := hf
  simp only at hstand hroom hout
  cases hstand with
  | waiting hu =>
    left
    rw [Lane.step, Option.isSome_map, Worker.receive]
    split
    · rfl
    · rename_i hblocked; exact absurd hblocked (hc.receive_ne_blocked hu hr)
    · rfl
  | holding => left; rfl
  | sending hb =>
    left
    rw [Lane.step, Option.isSome_map, Worker.deliver]
    split
    · rfl
    · rename_i hblocked; exact absurd hblocked (hout.send_ne_blocked hroom _)
    · rfl
  | serving => left; rfl
  | served hb ho => right; exact ⟨(by rintro rfl; cases ho), rfl⟩
  | panicking => left; rfl
  | panicked => right; exact ⟨Supply.dry_ne_pending, rfl⟩
  | starving => left; rfl
  | starved => right; exact ⟨Supply.dry_ne_pending, rfl⟩

namespace Wired

/-- All threads of some handles have exited. -/
def Exited (w : Wired α β) (hs : List Handle) : Prop := ∀ h ∈ hs, (w.exit? h.thread).isSome

theorem exit?_lane_of_mem {w : Wired α β} {l : Lane β γ} {h : Handle} (hm : h ∈ w.handles) :
    (lane w l).exit? h.thread = w.exit? h.thread := by
  rw [exit?, if_neg (Nat.ne_of_lt (thread_lt_size hm))]

theorem exited_lane {w : Wired α β} {l : Lane β γ} :
    (lane w l).Exited (lane w l).handles ↔ w.Exited w.handles ∧ l.worker.exit?.isSome := by
  have hlast : (lane w l).exit? w.size = l.worker.exit? := if_pos rfl
  simp only [Exited, handles, List.mem_append, List.mem_singleton]
  constructor
  · intro hex
    refine ⟨fun h hm => ?_, hlast ▸ hex _ (.inr rfl)⟩
    exact exit?_lane_of_mem (l := l) hm ▸ hex h (.inl hm)
  · rintro ⟨hex, hl⟩ h (hm | rfl)
    · exact (exit?_lane_of_mem hm).symm ▸ hex h hm
    · exact hlast.symm ▸ hl

end Wired

namespace Flow

variable {t : String → String} {x : α} {feed : Feed} {w : Wired α β} {s : Supply β} {h : List Deed}

/-- **No thread waits for good.** Once the caller has sent the input, or gone without sending it,
some thread can move as long as not all of them have exited; and then nothing is pending. -/
theorem exists_step (hf : Flow t x feed w s h) (hfeed : feed ≠ .idle) :
    (∃ i < w.size, (w.step i).isSome) ∨ s ≠ .pending ∧ w.Exited w.handles := by
  induction hf with
  | entry hg _ _ =>
    right
    refine ⟨?_, fun _ hm => absurd hm List.not_mem_nil⟩
    cases hg with
    | idle => exact absurd rfl hfeed
    | _ => nofun
  | lane hw hl ih =>
    rcases ih with ⟨i, hi, hstep⟩ | ⟨hr, hex⟩
    · left
      refine ⟨i, Nat.lt_succ_of_lt hi, ?_⟩
      rw [Wired.step, if_neg (Nat.ne_of_lt hi), Option.isSome_map]
      exact hstep
    · rcases hl.step_or_exited hw.carries hr with hstep | ⟨hs, hexit⟩
      · left
        refine ⟨_, Nat.lt_succ_self _, ?_⟩
        rw [Wired.step, if_pos rfl, Option.isSome_map]
        exact hstep
      · right
        exact ⟨hs, Wired.exited_lane.mpr ⟨hex, hexit⟩⟩

end Flow

/-! ## What comes of the value -/

/-- A lane without a value has done nothing. -/
theorem Lane.Stand.idle {st : Stage β γ} {place calls : Nat} {thread : String}
    {worker : Worker β γ} {notes : List StageNote} {r : Supply β} {s : Supply γ} {own : List Deed}
    (h : Stand st place thread worker calls notes r s own) (hr : r.value? = none) :
    own = [] ∧ calls = 0 := by
  cases h <;> first | exact ⟨rfl, rfl⟩ | cases hr

/-- Nothing will come of a lane because its function panicked, or because nothing came to it. -/
theorem Lane.Stand.of_dry {st : Stage β γ} {place calls : Nat} {thread : String}
    {worker : Worker β γ} {notes : List StageNote} {r : Supply β} {own : List Deed}
    (h : Stand st place thread worker calls notes r .dry own) :
    (∃ a, r = .spent a ∧ st.body thread a = none ∧
      own = [.received place a, .applied place thread a]) ∨ r = .dry ∧ own = [] := by
  cases h with
  | serving hb ho | served hb ho => cases ho
  | panicked hb => exact .inl ⟨_, rfl, hb, rfl⟩
  | starved => exact .inr ⟨rfl, rfl⟩

namespace Flow

variable {t : String → String} {x : α} {feed : Feed} {w : Wired α β} {s : Supply β} {h : List Deed}

/-- Nothing was done unless the caller has sent the input. -/
theorem of_unsent (hf : Flow t x feed w s h) (hfeed : feed ≠ .sent) :
    h = [] ∧ w.All fun l => l.calls = 0 := by
  induction hf with
  | entry hg _ _ => cases hg <;> first | exact ⟨rfl, trivial⟩ | exact absurd rfl hfeed
  | @lane _ _ w _ r _ _ _ hw hl ih =>
    have hr : r.value? = none := Option.eq_none_iff_forall_ne_some.mpr fun a ha =>
      hfeed (hw.sent_of_value ha)
    obtain ⟨hown, hcalls⟩ := hl.stand.idle hr
    exact ⟨by rw [ih.1, hown]; rfl, ih.2, hcalls⟩

/-- What comes out is what the stages make of the input. -/
theorem eval_of_value {b : β} (hf : Flow t x feed w s h) (hs : s.value? = some b) :
    w.chain.eval t x = .ok b := by
  induction hf with
  | entry hg _ _ => cases hg <;> first | exact congrArg Except.ok (Option.some.inj hs) | cases hs
  | lane hw hl ih =>
    obtain ⟨a, ha, hb⟩ := hl.stand.body_of_value hs
    rw [hl.thread] at hb
    rw [Wired.chain, Chain.eval_snoc, ih ha]
    simp only [Except.bind, hb]

/-- Nothing comes out of what was sent only if a stage panics. -/
theorem eval_of_dry (hf : Flow t x .sent w .dry h) : ∃ name, w.chain.eval t x = .error name := by
  generalize hs : Supply.dry = s at hf
  induction hf with
  | entry hg _ _ => subst hs; cases hg
  | lane hw hl ih =>
    subst hs
    rw [Wired.chain, Chain.eval_snoc]
    rcases hl.stand.of_dry with ⟨a, rfl, hb, -⟩ | ⟨rfl, -⟩
    · rw [hl.thread] at hb
      rw [hw.eval_of_value rfl]
      exact ⟨_, by simp only [Except.bind, hb]; rfl⟩
    · obtain ⟨name, hn⟩ := ih rfl
      exact ⟨name, by rw [hn]; rfl⟩

end Flow

/-! ## The transcript -/

/-- The share of one lane in a transcript `all`, of which the lanes before it have done `done`;
`next` is what becomes of the result. -/
theorem Lane.Stand.course {st : Stage β γ} {place calls : Nat} {thread : String}
    {worker : Worker β γ} {notes : List StageNote} {r : Supply β} {s : Supply γ}
    {own done all : List Deed} {next : γ → List Deed}
    (h : Stand st place thread worker calls notes r s own)
    (hvalue : ∀ a, r.value? = some a → done ++ .received place a :: .applied place thread a ::
      (match st.body thread a with
        | some b => .sent place b :: next b
        | none => []) = all)
    (hdry : r = .dry → done = all) (hpending : r = .pending → done <+: all) :
    (∀ b, s.value? = some b → done ++ own ++ next b = all) ∧ (s = .dry → done ++ own = all) ∧
      (s = .pending → done ++ own <+: all) := by
  cases h with
  | waiting hu =>
    refine ⟨nofun, nofun, fun _ => ?_⟩
    rw [List.append_nil]
    cases r with
    | pending => exact hpending rfl
    | ready a => exact ⟨_, hvalue a rfl⟩
    | spent a => cases hu
    | dry => exact hdry rfl ▸ List.prefix_refl done
  | @holding a =>
    refine ⟨nofun, nofun, fun _ => ?_⟩
    rw [← hvalue a rfl]
    exact (List.prefix_append_right_inj done).mpr (List.prefix_append [_] _)
  | @sending a b hb =>
    refine ⟨nofun, nofun, fun _ => ?_⟩
    rw [← hvalue a rfl]
    exact (List.prefix_append_right_inj done).mpr (List.prefix_append [_, _] _)
  | @serving a b _ hb ho | @served a b _ hb ho =>
    have := hvalue a rfl
    rw [hb] at this
    refine ⟨fun b' hb' => ?_, ?_, ?_⟩
    · rw [ho, Option.some.injEq] at hb'
      subst hb'
      rw [List.append_assoc]; exact this
    · rintro rfl; cases ho
    · rintro rfl; cases ho
  | @panicking a hb =>
    have := hvalue a rfl
    rw [hb] at this
    exact ⟨nofun, nofun, fun _ => ⟨[], by rw [List.append_nil]; exact this⟩⟩
  | @panicked a hb =>
    have := hvalue a rfl
    rw [hb] at this
    exact ⟨nofun, fun _ => this, nofun⟩
  | starving =>
    refine ⟨nofun, nofun, fun _ => ?_⟩
    rw [List.append_nil]
    exact hdry rfl ▸ List.prefix_refl done
  | starved =>
    refine ⟨nofun, fun _ => ?_, nofun⟩
    rw [List.append_nil]; exact hdry rfl

namespace Flow

variable {t : String → String} {x : α} {feed : Feed} {w : Wired α β} {s : Supply β} {h : List Deed}

/-- **The transcript is that of stages that work one after the other**, as far as it goes: it is
complete when nothing will come of the last channel, and lacks what becomes of the value that has
come when one has. -/
theorem course (hf : Flow t x .sent w s h) (d : Chain β ω) {all : List Deed}
    (hall : .sent 0 x :: (w.chain.append d).course t 1 x = all) :
    (∀ b, s.value? = some b → h ++ d.course t (w.size + 1) b = all) ∧ (s = .dry → h = all) ∧
      (s = .pending → h <+: all) := by
  induction hf with
  | entry hg _ _ =>
    subst hall
    cases hg with
    | ready => exact ⟨by rintro b ⟨⟩; rfl, nofun, nofun⟩
    | spent => exact ⟨by rintro b ⟨⟩; rfl, nofun, nofun⟩
  | @lane _ _ w l r s h own hw hl ih =>
    rw [Wired.chain, Chain.snoc_append] at hall
    obtain ⟨hvalue, hdry, hpending⟩ := ih (.cons l.stage d) hall
    have hstand := hl.stand
    rw [hl.index, hl.thread] at hstand
    exact hstand.course hvalue hdry hpending

end Flow

/-! ## Panics -/

/-- The fault of the first of some threads that panicked. -/
def Wired.firstPanic (w : Wired α β) (hs : List Handle) : Option Fault :=
  (hs.find? fun h => w.exit? h.thread = some true).map fun h => .stagePanicked h.stage

namespace Wired

theorem firstPanic_append (w : Wired α β) (hs hs' : List Handle) :
    w.firstPanic (hs ++ hs') = (w.firstPanic hs).or (w.firstPanic hs') := by
  simp only [firstPanic, List.find?_append, Option.map_or]

theorem firstPanic_singleton (w : Wired α β) (h : Handle) :
    w.firstPanic [h] = if w.exit? h.thread = some true then some (.stagePanicked h.stage)
      else none := by
  simp only [firstPanic, List.find?_cons, List.find?_nil]
  split <;> rename_i hp <;> simp_all

theorem firstPanic_congr {w : Wired α β} {w' : Wired α γ} {hs : List Handle}
    (h : ∀ hd ∈ hs, w'.exit? hd.thread = w.exit? hd.thread) :
    w'.firstPanic hs = w.firstPanic hs := by
  induction hs with
  | nil => rfl
  | cons hd hs ih =>
    rw [← List.singleton_append, firstPanic_append, firstPanic_append, firstPanic_singleton,
      firstPanic_singleton, h hd List.mem_cons_self,
      ih fun hd' hm => h hd' (List.mem_cons_of_mem _ hm)]

end Wired

/-- How a thread that exited ended. -/
theorem Lane.Stand.of_exited {st : Stage β γ} {place calls : Nat} {thread : String}
    {worker : Worker β γ} {notes : List StageNote} {r : Supply β} {s : Supply γ} {own : List Deed}
    (h : Stand st place thread worker calls notes r s own) (hexit : worker.exit?.isSome) :
    (∃ a b, r = .spent a ∧ st.body thread a = some b ∧ worker.exit? = some false) ∨
      (∃ a, r = .spent a ∧ st.body thread a = none ∧ worker.exit? = some true) ∨
      r = .dry ∧ worker.exit? = some false := by
  cases h with
  | served hb => exact .inl ⟨_, _, rfl, hb, rfl⟩
  | panicked hb => exact .inr (.inl ⟨_, rfl, hb, rfl⟩)
  | starved => exact .inr (.inr ⟨rfl, rfl⟩)
  | _ => cases hexit

namespace Flow

variable {t : String → String} {x : α} {feed : Feed} {w : Wired α β} {s : Supply β} {h : List Deed}

/-- Once all threads have exited, the first that panicked is that of the stage which fails. -/
theorem firstPanic (hf : Flow t x .sent w s h) (hex : w.Exited w.handles) :
    w.firstPanic w.handles = match w.chain.eval t x with
      | .ok _ => none
      | .error name => some (.stagePanicked name) := by
  induction hf with
  | entry => rfl
  | @lane _ _ w l r s h own hw hl ih =>
    obtain ⟨hex, hexit⟩ := Wired.exited_lane.mp hex
    have hlast : (Wired.lane w l).exit? w.size = l.worker.exit? := if_pos rfl
    rw [Wired.handles, Wired.firstPanic_append,
      Wired.firstPanic_congr (w := w) fun hd hm => Wired.exit?_lane_of_mem hm, ih hex,
      Wired.firstPanic_singleton, hlast, Wired.chain, Chain.eval_snoc]
    rcases hl.stand.of_exited hexit with ⟨a, b, rfl, hb, hend⟩ | ⟨a, rfl, hb, hend⟩ | ⟨rfl, hend⟩
    · rw [hl.thread] at hb
      rw [hw.eval_of_value rfl, hend]
      simp [Except.bind, hb]
    · rw [hl.thread] at hb
      rw [hw.eval_of_value rfl, hend]
      simp [Except.bind, hb]
    · obtain ⟨name, hn⟩ := hw.eval_of_dry
      rw [hn, hend]
      rfl

end Flow

/-! ## The one value -/

/-- The values in a channel of which this is to be expected. -/
def Supply.load : Supply β → Nat
  | .ready _ => 1
  | _ => 0

theorem Supply.load_le_one (s : Supply β) : s.load ≤ 1 := by
  cases s <;> simp [load]

theorem Channel.Carries.occupancy {c : Channel β} {s : Supply β} (h : c.Carries s) :
    c.occupancy = s.load := by
  cases s with
  | pending => exact congrArg List.length h.1
  | ready b => exact congrArg List.length h
  | spent b => exact congrArg List.length h
  | dry => exact congrArg List.length h.1

namespace Lane

section Stand

variable {st : Stage β γ} {place calls : Nat} {thread : String} {worker : Worker β γ}
  {notes : List StageNote} {r : Supply β} {s : Supply γ} {own : List Deed}

/-- The share of one lane in the count of values, of which there are `n` before it. -/
theorem Stand.load {n : Nat} (h : Stand st place thread worker calls notes r s own) (hn : n ≤ 1)
    (hr : r ≠ .pending → n = r.load) :
    n + worker.load + s.load ≤ 1 ∧ (s ≠ .pending → n + worker.load + s.load = s.load) := by
  cases h with
  | waiting => exact ⟨hn, fun hs => absurd rfl hs⟩
  | serving | served =>
    have h0 : n = 0 := hr nofun
    simp [h0, Worker.load, s.load_le_one]
  | _ =>
    have h0 : n = 0 := hr nofun
    simp [h0, Worker.load, Supply.load]

/-- A thread applies its function once at most, hands on what it has, and sends only what its
reader waits for. -/
theorem Stand.quiet (h : Stand st place thread worker calls notes r s own) :
    calls ≤ 1 ∧ .downstreamClosed ∉ notes ∧
      ∀ b, worker = .sending b → s = .pending ∧ ∃ a, r.value? = some a := by
  cases h with
  | sending => exact ⟨Nat.le_refl 1, by decide, fun _ _ => ⟨rfl, _, rfl⟩⟩
  | _ => exact ⟨by decide, by decide, nofun⟩

end Stand

/-- What a lane does to a value is said of its place. -/
theorem place_of_deed? {l : Lane β γ} {source : Channel β} {d : Deed}
    (h : l.deed? source = some d) : d.place = l.index := by
  unfold deed? at h
  split at h
  · obtain ⟨-, -, rfl⟩ := Option.map_eq_some_iff.mp h; rfl
  · cases h; rfl
  · obtain ⟨-, -, rfl⟩ := Option.map_eq_some_iff.mp h; rfl
  · cases h

end Lane

namespace Flow

variable {t : String → String} {x : α} {feed : Feed} {w : Wired α β} {s : Supply β} {h : List Deed}

/-- **There is one value on its way at most**, and none behind a value that has come out. -/
theorem payloads (hf : Flow t x feed w s h) :
    w.payloads ≤ 1 ∧ (s ≠ .pending → w.payloads = s.load) := by
  induction hf with
  | @entry c s _ hg _ hc =>
    have : (Wired.entry c : Wired α α).payloads = s.load := hc.occupancy
    rw [this]
    exact ⟨s.load_le_one, fun _ => rfl⟩
  | lane hw hl ih =>
    rw [Wired.payloads, hl.carries.occupancy]
    exact hl.stand.load ih.1 ih.2

/-- **Whoever has a result to send can send it**, and no thread has ever failed to. -/
theorem sends (hf : Flow t x feed w s h)
    (hrec : feed = .sent → s = .pending → w.last.receiver = true) :
    w.All fun l => l.calls ≤ 1 ∧ .downstreamClosed ∉ l.notes ∧
      ∀ b, l.worker = .sending b → ∃ out, l.out.send b = .done out := by
  induction hf with
  | entry => trivial
  | @lane _ _ w l r s h own hw hl ih =>
    refine ⟨ih fun _ hp => by subst hp; exact hl.receiver_of_pending, hl.stand.quiet.1,
      hl.stand.quiet.2.1, fun b hb => ?_⟩
    obtain ⟨rfl, a, ha⟩ := hl.stand.quiet.2.2 b hb
    exact ⟨_, hl.carries.send_pending hl.room (hrec (hw.sent_of_value ha) rfl) b⟩

theorem place_of_deed? {i : Nat} {d : Deed} (hf : Flow t x feed w s h) (hd : w.deed? i = some d) :
    d.place = i + 1 := by
  induction hf with
  | entry => cases hd
  | lane hw hl ih =>
    rw [Wired.deed?] at hd
    split at hd
    · rename_i hi
      rw [Lane.place_of_deed? hd, hl.index, hi]
    · exact ih hd

end Flow

end Relay

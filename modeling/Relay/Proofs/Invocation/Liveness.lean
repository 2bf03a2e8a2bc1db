import Relay.Proofs.Invocation.Sound

/-!
# No run hangs

In every state that a run comes to before its caller is done, the caller or some thread can move
(`At.exists_step`), and every step takes the run closer to its end (`At.stepsLeft_lt`). So every
run can be brought to an end (`Reaches.exists_ended`), and none goes on forever
(`Reaches.never_hangs`).
-/

namespace Relay

variable {α β ω : Type}

namespace Plan

variable {p : Plan α ω} {c : Custody} {w : Wired α β} {phase : Phase α ω β} {feed : Feed}
  {s : Supply β} {h deeds : List Deed} {l l' : Ledger} {v v' : Invocation α ω}

/-! ## Progress -/

theorem exists_step_of_thread {i : Nat} (hi : (w.step i).isSome) :
    ∃ move, ((⟨p, c, w, phase⟩ : Invocation α ω).step move l).isSome :=
  ⟨.thread i, by rw [Invocation.step, Option.isSome_map]; exact hi⟩

/-- Some thread can move, or the next one to join has exited. -/
theorem exists_step_or_exited {hd : Handle} {crew : List Handle} {fault : Option Fault}
    (hf : Flow p.tuning.threadName p.input feed w s h) (hfeed : feed ≠ .idle)
    (hj : c.Joined w fault) (hcrew : c.crew = hd :: crew) :
    (∃ i, (w.step i).isSome) ∨ ∃ panicked, w.exit? hd.thread = some panicked := by
  rcases hf.exists_step hfeed with ⟨i, -, hi⟩ | ⟨-, hex⟩
  · exact .inl ⟨i, hi⟩
  · obtain ⟨done, hhandles, -⟩ := hj
    have hm : hd ∈ w.handles := by
      rw [hhandles, hcrew]
      exact List.mem_append_right _ List.mem_cons_self
    exact .inr (Option.isSome_iff_exists.mp (hex hd hm))

/-- **Some party can move** as long as the caller is not done: the caller is blocked only while it
waits for a value or for a thread, and then a thread can move. -/
theorem At.exists_step (hat : p.At c w phase feed s h deeds)
    (hf : Flow p.tuning.threadName p.input feed w s h) (l : Ledger)
    (hend : (⟨p, c, w, phase⟩ : Invocation α ω).ending? = none) :
    ∃ move, ((⟨p, c, w, phase⟩ : Invocation α ω).step move l).isSome := by
  cases hat with
  | opening => exact ⟨.caller, rfl⟩
  | @wiring _ _ rest => cases rest <;> exact ⟨.caller, rfl⟩
  | spawning hl hc =>
    refine ⟨.caller, ?_⟩
    simp only [Invocation.step, Invocation.callerStep]
    split <;> rfl
  | sending hl hc =>
    obtain ⟨first, hfirst⟩ := (At.sending hl hc : p.At c w .sending .idle s h h).sends hf
    refine ⟨.caller, ?_⟩
    simp only [Invocation.step, Invocation.callerStep, hfirst]
    rfl
  | closingFirst => exact ⟨.caller, rfl⟩
  | receiving hl hc hs =>
    rcases hf.exists_step (by decide) with ⟨i, -, hi⟩ | ⟨hne, -⟩
    · exact exists_step_of_thread hi
    · refine ⟨.caller, ?_⟩
      simp only [Invocation.step, Invocation.callerStep]
      split
      · rfl
      · rename_i hblocked; exact absurd hblocked (hf.carries.receive_ne_blocked hs hne)
      · rfl
  | closingLast => exact ⟨.caller, rfl⟩
  | joining hj hc hy =>
    cases hcrew : c.crew with
    | nil =>
      refine ⟨.caller, ?_⟩
      simp only [Invocation.step, Invocation.callerStep, hcrew]
      split <;> rfl
    | cons hd crew =>
      rcases exists_step_or_exited hf (by decide) hj hcrew with ⟨i, hi⟩ | ⟨panicked, hexit⟩
      · exact exists_step_of_thread hi
      · refine ⟨.caller, ?_⟩
        simp only [Invocation.step, Invocation.callerStep, hcrew, hexit]
        rfl
  | disposing hcrew hex hc heval =>
    refine ⟨.caller, ?_⟩
    simp only [Invocation.step, Invocation.callerStep]
    split
    · rfl
    · split <;> rfl
  | abandoning => exact ⟨.caller, rfl⟩
  | reaping hj hg =>
    cases hcrew : c.crew with
    | nil =>
      refine ⟨.caller, ?_⟩
      simp only [Invocation.step, Invocation.callerStep, hcrew]
      rfl
    | cons hd crew =>
      rcases exists_step_or_exited hf (by decide) hj hcrew with ⟨i, hi⟩ | ⟨panicked, hexit⟩
      · exact exists_step_of_thread hi
      · refine ⟨.caller, ?_⟩
        simp only [Invocation.step, Invocation.callerStep, hcrew, hexit]
        rfl
  | dropping =>
    refine ⟨.caller, ?_⟩
    simp only [Invocation.step, Invocation.callerStep]
    split <;> rfl
  | finished => cases hend

/-! ## Termination -/

/-- **Every step of the caller takes the run closer to its end.** -/
theorem At.stepsLeft_lt (hat : p.At c w phase feed s h deeds)
    (hact : Invocation.Acts p l ⟨p, c, w, phase⟩ l' v) :
    v.stepsLeft < (⟨p, c, w, phase⟩ : Invocation α ω).stepsLeft := by
  cases hact with
  | opens =>
    cases hat with
    | opening hc hr =>
      subst hc
      show 0 + (9 * p.pipeline.length + 0 + 2 * 1 + 8) < 0 + (9 * p.pipeline.length + 11)
      omega
  | @adds _ _ _ _ st rest =>
    show w.stepsLeft + (9 * rest.length + c.crew.length + 2 * (c.records ++ [_]).length + 14) <
      w.stepsLeft + (9 * (rest.length + 1) + c.crew.length + 2 * c.records.length + 8)
    rw [List.length_append, List.length_singleton]
    omega
  | @starts _ _ _ _ _ _ rest ho =>
    show w.stepsLeft + 4 + (9 * rest.length + (c.crew ++ [_]).length + 2 * c.records.length + 8) <
      w.stepsLeft + (9 * rest.length + c.crew.length + 2 * c.records.length + 14)
    rw [List.length_append, List.length_singleton]
    omega
  | joins hcrew | reaps hcrew =>
    simp only [Invocation.stepsLeft, Phase.stepsLeft, Custody.note, hcrew, List.length_cons]
    omega
  | disposes hrecords =>
    simp only [Invocation.stepsLeft, Phase.stepsLeft, Custody.note, hrecords, List.length_cons,
      List.length_append, List.length_nil]
    omega
  | disposesNot hrecords =>
    simp only [Invocation.stepsLeft, Phase.stepsLeft, hrecords, List.length_cons,
      List.length_append]
    omega
  | drops hrecords =>
    simp only [Invocation.stepsLeft, Phase.stepsLeft, Custody.note, hrecords, List.length_cons]
    omega
  | fails | sends | closesFirst | receives | closesLast | forsakes | abandons =>
    simp only [Invocation.stepsLeft, Phase.stepsLeft, Wired.mapLast, Wired.stepsLeft_setLast,
      Wired.stepsLeft_mapFirst]
    omega
  | wires | sendsNot | receivesNot | reports | concludes | misses | returns | reaped | ends =>
    simp only [Invocation.stepsLeft, Phase.stepsLeft, Custody.note, List.length_nil]
    omega

theorem Sound.stepsLeft_lt {move : Move} (hs : p.Sound deeds v)
    (hstep : v.step move l = some (l', v')) : v'.stepsLeft < v.stepsLeft := by
  obtain ⟨rfl, feed, s, own, hf, hat⟩ := hs
  rcases Invocation.step_cases hstep with ⟨rfl, hact⟩ | ⟨i, w, rfl, hw, -, rfl⟩
  · exact hat.stepsLeft_lt hact
  · exact Nat.add_lt_add_right (Wired.stepsLeft_step hw) _

theorem Sound.exists_step (hs : p.Sound deeds v) (l : Ledger) (hend : v.ending? = none) :
    ∃ move, (v.step move l).isSome := by
  obtain ⟨rfl, feed, s, own, hf, hat⟩ := hs
  exact hat.exists_step hf l hend

/-- Where no party can move, the caller is done. -/
theorem Sound.ended (hs : p.Sound deeds v) (hblocked : ∀ move, v.step move l = none) :
    v.ending?.isSome := by
  cases hend : v.ending? with
  | some e => rfl
  | none =>
    obtain ⟨move, hstep⟩ := hs.exists_step l hend
    rw [hblocked] at hstep
    cases hstep

/-! ## Runs -/

namespace Reaches

variable {l₀ : Ledger} {schedule : List Move}

/-- A run takes no more steps than there are in the beginning. -/
theorem length_le (h : p.Reaches l₀ schedule deeds l v) :
    schedule.length + v.stepsLeft ≤ p.start.stepsLeft := by
  induction h with
  | start => exact Nat.le_of_eq (Nat.zero_add _)
  | step move hr hstep ih =>
    have hlt := hr.sound.stepsLeft_lt hstep
    rw [List.length_append, List.length_singleton]
    omega

/-- The driver brings a run to its end if it may take as many steps as are left. -/
theorem ended_drive {fuel : Nat} (h : p.Reaches l₀ schedule deeds l v)
    (hfuel : v.stepsLeft ≤ fuel) : (v.drive fuel l).2.ending?.isSome := by
  induction fuel generalizing schedule deeds l v with
  | zero =>
    refine h.sound.ended (l := l) fun move => ?_
    cases hstep : v.step move l with
    | none => rfl
    | some x =>
      have hlt := h.sound.stepsLeft_lt (show v.step move l = some (x.1, x.2) from hstep)
      omega
  | succ fuel ih =>
    rw [Invocation.drive]
    cases ha : v.advance l with
    | none => exact h.sound.ended (Invocation.step_eq_none_of_advance ha)
    | some x =>
      obtain ⟨move, hstep⟩ := Invocation.step_of_advance ha
      have hlt := h.sound.stepsLeft_lt hstep
      exact ih (h.step move hstep) (by omega)

/-- Every run can be brought to an end. -/
theorem exists_ended (h : p.Reaches l₀ schedule deeds l v) :
    ∃ schedule' deeds' l' v', p.Reaches l₀ (schedule ++ schedule') (deeds ++ deeds') l' v' ∧
      v'.ending?.isSome := by
  obtain ⟨schedule', deeds', hd⟩ := h.drive v.stepsLeft
  exact ⟨schedule', deeds', _, _, hd, h.ended_drive (Nat.le_refl _)⟩

/-- **No run hangs.** Until the caller is done some party can move, every step takes the run closer
to its end, and so no schedule is longer than the number of stages allows. -/
theorem never_hangs (h : p.Reaches l₀ schedule deeds l v) :
    (v.ending? = none → ∃ move, (v.step move l).isSome) ∧
      (∀ move l' v', v.step move l = some (l', v') → v'.stepsLeft < v.stepsLeft) ∧
      schedule.length + v.stepsLeft ≤ 9 * p.pipeline.length + 11 := by
  refine ⟨h.sound.exists_step l, fun move l' v' => h.sound.stepsLeft_lt, ?_⟩
  have hle := h.length_le
  have hstart : p.start.stepsLeft = 9 * p.pipeline.length + 11 := Nat.zero_add _
  omega

/-- The caller has to give up at the second stage, while the thread of the first one waits. -/
theorem never_hangs_specimen :
    let p := specimen 3 fun i _ => if i = 2 then .unwound else .started
    ∃ schedule deeds l v, p.Reaches .empty schedule deeds l v ∧ v.custody.crew.length = 1 ∧
      (∃ move, (v.step move l).isSome) ∧ schedule.length + v.stepsLeft ≤ 29 := by
  intro p
  have h₀ : p.Reaches .empty [] [] .empty p.start := .start
  have h := ((((((h₀.step .caller rfl).step .caller rfl).step .caller rfl).step .caller rfl).step
    .caller rfl).step .caller rfl)
  exact ⟨_, _, _, _, h, rfl, h.never_hangs.1 rfl, h.never_hangs.2.2⟩

end Reaches

end Plan

end Relay

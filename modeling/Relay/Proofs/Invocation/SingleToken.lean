import Relay.Proofs.Invocation.Sound

/-!
# One value on its way

In every state of every run there is one value on its way at most (`Plan.SingleToken`). So the
capacity of the channels is of no account: whoever has a value to send finds the channel empty and
its reader there, the function of each stage is applied once at most, and the stages take turns.
-/

namespace Relay

variable {α β ω : Type}

/-- The values in a channel that the caller has created and not handed out yet. -/
def Phase.load : Phase α ω β → Nat
  | .spawning _ out _ => out.occupancy
  | .opening | .wiring _ | .sending | .closingFirst | .receiving | .closingLast _ | .joining _ _
  | .disposing _ _ | .forsaking _ | .abandoning _ | .reaping _ _ | .dropping _ | .finished _ => 0

/-- The values on their way: those in the channels and those with the threads. -/
def Invocation.payloads (v : Invocation α ω) : Nat :=
  v.wired.payloads + v.phase.load

/-- Nothing on its way ever has to wait for room, or gets lost, or is worked twice. -/
structure Plan.SingleToken (p : Plan α ω) (deeds : List Deed) (v : Invocation α ω) : Prop where
  payloads : v.payloads ≤ 1
  /-- What was done was done in turn, and to what the stages before make of the input. -/
  course : deeds <+: p.course
  ranked : deeds.Pairwise (·.rank < ·.rank)
  does : ∀ d ∈ deeds, p.Does d
  /-- Only the thread of a stage applies its function. -/
  applies : ∀ {move place thread} {τ : Type} {x : τ},
    v.deed? move = some (.applied place thread x) → ∃ i, move = .thread i ∧ place = i + 1
  /-- The caller finds room and a reader when it sends, -/
  sendsInput : ∀ (c : Custody) (w : Wired α ω), v = ⟨p, c, w, .sending⟩ →
    ∃ first, w.first.send p.input = .done first
  /-- and so does each thread, which applies its function once at most. -/
  sends : v.wired.All fun l => l.calls ≤ 1 ∧ .downstreamClosed ∉ l.notes ∧
    ∀ b, l.worker = .sending b → ∃ out, l.out.send b = .done out
  /-- Nothing is done if a thread cannot be started. -/
  idle : ¬ p.Starts → deeds = [] ∧ v.wired.All fun l => l.calls = 0

namespace Plan

variable {p : Plan α ω} {c : Custody} {w : Wired α β} {phase : Phase α ω β} {feed : Feed}
  {s : Supply β} {h deeds : List Deed}

theorem At.load (hat : p.At c w phase feed s h deeds) : phase.load = 0 := by
  cases hat <;> rfl

/-- The caller applies no function. -/
theorem deed?_ne_applied (p : Plan α ω) (w : Wired α β) (phase : Phase α ω β) {place : Nat}
    {thread : String} {τ : Type} {x : τ} : p.deed? w phase ≠ some (.applied place thread x) := by
  intro h
  unfold deed? at h
  split at h
  · obtain ⟨_, _, he⟩ := Option.map_eq_some_iff.mp h; cases he
  · obtain ⟨_, _, he⟩ := Option.map_eq_some_iff.mp h; cases he
  · cases h

theorem transcript_prefix_course (p : Plan α ω) : p.transcript <+: p.course := by
  rw [transcript]
  split
  · exact List.nil_prefix
  · exact List.prefix_refl _

theorem setback?_of_not_starts (h : ¬ p.Starts) : p.setback?.isSome := by
  cases hsetback : p.setback? with
  | some x => rfl
  | none => exact absurd (starts_of_setback? hsetback).1 h

theorem Sound.sends_input {w : Wired α ω} (hs : p.Sound deeds ⟨p, c, w, .sending⟩) :
    ∃ first, w.first.send p.input = .done first := by
  obtain ⟨-, feed, s, h, hf, hat⟩ := hs
  exact hat.sends hf

/-- **There is one value on its way at most**, in every state of every run. -/
theorem Reaches.single_token {l₀ l : Ledger} {schedule : List Move} {v : Invocation α ω}
    (hr : p.Reaches l₀ schedule deeds l v) : p.SingleToken deeds v := by
  obtain ⟨-, feed, s, h, hf, hat⟩ := hr.sound
  have hprefix := hat.transcript_prefix hf
  have hcourse : deeds <+: p.course := hprefix.trans p.transcript_prefix_course
  refine ⟨?_, hcourse, p.course_ranked.sublist hcourse.sublist,
    fun d hd => p.does_of_course d (hcourse.subset hd), ?_, ?_, ?_, ?_⟩
  · rw [Invocation.payloads, hat.load]
    exact hf.payloads.1
  · intro move place thread τ x hd
    cases move with
    | caller => exact absurd hd (deed?_ne_applied _ _ _)
    | thread i => exact ⟨i, rfl, hf.place_of_deed? hd⟩
  · rintro c w rfl
    exact hr.sound.sends_input
  · exact hf.sends fun hfeed hs => by subst hfeed hs; exact hat.receiver hf
  · intro hstarts
    have hsetback := setback?_of_not_starts hstarts
    rw [transcript, if_pos hsetback] at hprefix
    exact ⟨List.prefix_nil.mp hprefix, (hf.of_unsent (hat.unsent hsetback)).2⟩

/-- The first stage has the value, while the thread of the second one waits for it. -/
theorem Reaches.single_token_specimen :
    let p := specimen 3 fun _ _ => .started
    ∃ schedule deeds l v, p.Reaches .empty schedule deeds l v ∧ v.payloads = 1 ∧
      v.wired.calls = [1, 0] ∧ p.SingleToken deeds v := by
  intro p
  have h₀ : p.Reaches .empty [] [] .empty p.start := .start
  obtain ⟨schedule, deeds, h⟩ := h₀.drive 10
  have hpayloads : (p.start.drive 10 .empty).2.payloads = 1 := by decide +kernel
  have hcalls : (p.start.drive 10 .empty).2.wired.calls = [1, 0] := by decide +kernel
  exact ⟨_, _, _, _, h, hpayloads, hcalls, h.single_token⟩

end Plan

end Relay

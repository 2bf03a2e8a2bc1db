import Relay.Proofs.Invocation.Accounts
import Relay.Proofs.Invocation.Liveness

/-!
# What a run comes to

If every thread can be started and no thread of others is live, then a run has one outcome, which
the stages and the input decide (`Chain.outcome`): the schedule and the capacity of the channels
have no say in it. `Pipeline.run_ending` and `Pipeline.run_ledger` say what the driver gives
whatever comes of starting the threads.
-/

namespace Relay

variable {α ω : Type}

/-- What a run of some stages comes to if nothing but the stages has a say in it: the value that
they make of the input, or the failure of the first that panics. -/
def Chain.outcome (threadName : String → String) (c : Chain α ω) (a : α) : Ending ω :=
  match c.eval threadName a with
  | .ok value => .returned value
  | .error stage => .failed ⟨[], .stagePanicked stage⟩

namespace Plan

variable {p : Plan α ω} {l₀ l : Ledger} {schedule : List Move} {deeds : List Deed}
  {v : Invocation α ω} {e : Ending ω}

theorem verdict_of_starts (h : p.Starts) (hquiet : l₀.liveThreads = 0) :
    p.verdict l₀ = p.pipeline.chain.outcome p.tuning.threadName p.input := by
  have hsetback := setback?_of_starts h
  rw [Chain.outcome]
  split <;> rename_i heval
  · rw [verdict_of_ok hsetback heval, if_pos hquiet]
  · rw [verdict_of_error hsetback heval]

theorem transcript_of_starts (h : p.Starts) : p.transcript = p.course :=
  if_neg (by rw [setback?_of_starts h]; nofun)

theorem Reaches.ended_outcome (hstarts : p.Starts) (hquiet : l₀.liveThreads = 0)
    (h : p.Reaches l₀ schedule deeds l v) (hend : v.ending? = some e) :
    e = p.pipeline.chain.outcome p.tuning.threadName p.input ∧ deeds = p.course := by
  rw [← verdict_of_starts hstarts hquiet, ← transcript_of_starts hstarts]
  exact ⟨(h.ended hend).2, h.sound.transcript_of_ended hend⟩

/-- **Every run comes to the same outcome**, by any schedule, and by a transcript that is a course:
the input and what each stage makes of it are handed on in order and once. -/
theorem Reaches.comes_to_outcome (hstarts : p.Starts) (hquiet : l₀.liveThreads = 0)
    (h : p.Reaches l₀ schedule deeds l v) :
    (deeds <+: p.course ∧ p.course.Pairwise (·.rank < ·.rank)) ∧
      (∀ e, v.ending? = some e →
        e = p.pipeline.chain.outcome p.tuning.threadName p.input ∧ deeds = p.course) ∧
      ∃ schedule' l' v', p.Reaches l₀ (schedule ++ schedule') p.course l' v' ∧
        v'.ending? = some (p.pipeline.chain.outcome p.tuning.threadName p.input) := by
  refine ⟨⟨?_, p.course_ranked⟩, fun e hend => h.ended_outcome hstarts hquiet hend, ?_⟩
  · rw [← transcript_of_starts hstarts]
    exact h.sound.transcript_prefix
  · obtain ⟨schedule', deeds', l', v', h', hsome⟩ := h.exists_ended
    obtain ⟨e, hend⟩ := Option.isSome_iff_exists.mp hsome
    obtain ⟨rfl, hdeeds⟩ := h'.ended_outcome hstarts hquiet hend
    exact ⟨schedule', l', v', hdeeds ▸ h', hend⟩

/-- The second stage panics on what the first one makes of seven. -/
theorem Reaches.comes_to_outcome_specimen :
    let p := specimen 7 fun _ _ => .started
    ∃ schedule deeds l v, p.Reaches .empty schedule deeds l v ∧
      v.ending? = some (.failed ⟨[], .stagePanicked "check"⟩) ∧
      p.pipeline.chain.outcome p.tuning.threadName 7 = .failed ⟨[], .stagePanicked "check"⟩ ∧
      deeds = [.sent 0 7, .received 1 7, .applied 1 (p.tuning.threadName "double") 7, .sent 1 14,
        .received 2 14, .applied 2 (p.tuning.threadName "check") 14] := by
  intro p
  have h₀ : p.Reaches .empty [] [] .empty p.start := .start
  obtain ⟨schedule, deeds, h⟩ := h₀.drive 29
  have hend : (p.start.drive 29 .empty).2.ending? =
      some (.failed ⟨[], .stagePanicked "check"⟩) := by decide +kernel
  have hstarts : p.Starts := fun _ _ _ _ => rfl
  have hquiet : Ledger.empty.liveThreads = 0 := rfl
  obtain ⟨hending, hdeeds⟩ := (h.comes_to_outcome hstarts hquiet).2.1 _ hend
  exact ⟨_, _, _, _, h, hend, hending.symm, hdeeds⟩

end Plan

namespace Pipeline

/-- **The driver brings every run to its end**, and what it gives is the verdict. -/
theorem run_ending (p : Pipeline α ω) (input : α) (l : Ledger)
    (host : Nat → String → SpawnOutcome) :
    (p.run input l host).ending = some ((Plan.mk p input host).verdict l) := by
  have h₀ : (Plan.mk p input host).Reaches l [] [] l (Plan.mk p input host).start := .start
  obtain ⟨schedule, deeds, h⟩ := h₀.drive (Plan.mk p input host).start.stepsLeft
  obtain ⟨e, hend⟩ := Option.isSome_iff_exists.mp (h₀.ended_drive (Nat.le_refl _))
  rw [← (h.ended hend).2]
  exact hend

/-- What the driver leaves on the ledger. -/
theorem run_ledger (p : Pipeline α ω) (input : α) (l : Ledger)
    (host : Nat → String → SpawnOutcome) :
    (p.run input l host).ledger =
      l.after (Plan.mk p input host).channels (Plan.mk p input host).started := by
  have h₀ : (Plan.mk p input host).Reaches l [] [] l (Plan.mk p input host).start := .start
  obtain ⟨schedule, deeds, h⟩ := h₀.drive (Plan.mk p input host).start.stepsLeft
  obtain ⟨e, hend⟩ := Option.isSome_iff_exists.mp (h₀.ended_drive (Nat.le_refl _))
  exact (h.ended hend).1

end Pipeline

end Relay

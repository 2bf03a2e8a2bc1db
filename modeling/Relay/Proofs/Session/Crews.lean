import Relay.Proofs.Crew
import Relay.Proofs.Session.History

/-!
# The crews of a session

What a session does with a crew is what a call on its roster comes to (`Session.crewLaw`). So the
law of joining holds of it, in whatever order the threads exit (`joins_in_order`).
-/

namespace Relay

namespace Session

/-- A crew of a session, with the ledger that counts its threads. -/
def roster (s : Session) (crew : Crew) : Roster :=
  ⟨crew.handles, s.books.ledger crew.ledger, s.tasks.size, s.log⟩

/-- What is done with the crew of a name is what the call on its roster comes to. -/
structure CrewLaw (s : Session) (name : String) (crew : Crew) : Prop where
  join : s.canJoin crew = true →
    (s.join name).1.outcome = ((s.roster crew).call s.panicked .join).1 ∧
      (s.join name).2.crews.find? name = some { crew with handles := [] } ∧
      (s.join name).2.roster { crew with handles := [] } =
        ((s.roster crew).call s.panicked .join).2
  dismiss : s.canJoin crew = true →
    (s.dismiss name).1.outcome = ((s.roster crew).call s.panicked .drop).1 ∧
      (s.dismiss name).2.crews.find? name = none ∧
      (s.dismiss name).2.roster { crew with handles := [] } =
        ((s.roster crew).call s.panicked .drop).2
  /-- A thread that is not started leaves the crew, its ledger and the log as they are. -/
  spawn : ∀ (host : Host) task seen,
    let outcome := host crew.tuning (crew.handles.length + 1) task.thread
    (s.enlist host name crew task seen).1.outcome =
        ((s.roster crew).call s.panicked (.spawn task.stage.name outcome)).1 ∧
      ∃ handles,
        (s.enlist host name crew task seen).2.crews.find? name = some { crew with handles } ∧
        (s.enlist host name crew task seen).2.roster { crew with handles } =
          ((s.roster crew).call s.panicked (.spawn task.stage.name outcome)).2

variable {s : Session} {name : String} {crew : Crew}

theorem crewLaw (hfind : s.crews.find? name = some crew) : s.CrewLaw name crew where
  join hjoin := by
    rw [join, hfind]
    simp only [hjoin, if_true]
    refine ⟨?_, Directory.find?_put_self .., ?_⟩
    · rw [Roster.call_join, roster, joinAll_eq]
      cases firstPanic s.panicked crew.handles <;> rfl
    · rw [Roster.call_join, joinAll_eq]
      simp only [roster, note, Books.ledger_update_self]
      rfl
  dismiss hjoin := by
    rw [dismiss, hfind]
    simp only [hjoin, if_true]
    refine ⟨?_, Directory.find?_erase_self .., ?_⟩
    · rw [Roster.call_drop]
    · rw [Roster.call_drop, dropCrew, dropCrew_eq]
      simp only [roster, note, Books.ledger_update_self, Roster.joined, Roster.joining,
        List.append_assoc]
      rfl
  spawn host task seen := by
    rw [enlist]
    cases host crew.tuning (crew.handles.length + 1) task.thread with
    | started =>
      refine ⟨rfl, _, Directory.find?_put_self .., ?_⟩
      simp only [roster, note, Books.ledger_update_self, Array.size_push]
      rfl
    | refused =>
      refine ⟨rfl, crew.handles, ?_, ?_⟩
      · cases task.source <;> cases task.target <;> exact hfind
      · cases task.source <;> cases task.target <;> rfl
    | unwound =>
      refine ⟨rfl, crew.handles, ?_, ?_⟩
      · cases task.source <;> cases task.target <;> exact hfind
      · cases task.source <;> cases task.target <;> rfl

/-- **A crew is joined in the order of starting**, in whatever order its threads exit and whichever
of them panic. Every call on a crew has the same law, also after it was joined before and after a
thread could not be started, and so have the crews of a session. -/
theorem joins_in_order (panicked : Nat → Bool) (c : Roster) (calls : List Roster.Call)
    (turns : List Muster.Turn) (hfind : s.crews.find? name = some crew) :
    c.JoinLaw panicked ∧ Muster.Serves panicked calls (Muster.play panicked { calls } turns) ∧
      s.CrewLaw name crew :=
  ⟨c.joinLaw panicked, Muster.serves panicked calls turns, crewLaw hfind⟩

/-- Two of three threads panic, and the later one is the first to exit. The crew of the session has
one thread, which returns. -/
theorem joins_in_order_specimen :
    ((⟨[⟨"a", 0⟩, ⟨"b", 1⟩, ⟨"c", 2⟩], .empty, 3, []⟩ : Roster).call (fun thread => 0 < thread)
        .join).1 = .fault (.stagePanicked "b") ∧
      ((replay "main" specimen).2.join "crew").1.outcome = .done := by
  have hfind : (replay "main" specimen).2.crews.find? "crew" =
      some { handles := [⟨"stage", 0⟩], tuning := {}, ledger := "main" } := by
    rfl
  obtain ⟨hlaw, -, hcrews⟩ := joins_in_order (fun thread => 0 < thread)
    ⟨[⟨"a", 0⟩, ⟨"b", 1⟩, ⟨"c", 2⟩], .empty, 3, []⟩ [] [] hfind
  refine ⟨?_, ?_⟩
  · exact hlaw.fault [⟨"a", 0⟩] ⟨"b", 1⟩ [⟨"c", 2⟩] rfl (by decide) rfl
  · exact (hcrews.join (by decide +kernel)).1.trans rfl

end Session

end Relay

import Relay.Proofs.Tally
import Relay.Session.Action

/-!
# Crews in service

What the calls on a crew come to once its threads have exited (`Roster.call`), and a crew whose
owner makes its calls one after the other while the threads exit in any order (`Muster.play`). A
join waits for one thread after the other, in the order in which they were started.

* `Roster.joinLaw`: all threads are joined, whichever panicked, and the first panic in that order is
  told;
* `Muster.Follows.step`: it makes no difference when the threads exit;
* `Muster.Accounts.step`: every thread that was started is joined once, in order, and none besides;
* `Muster.returns`: a join comes to its end when the threads have.
-/

namespace Relay

/-- What a call comes to that has met with a fault, or with none. -/
def Outcome.ofFault : Option Fault → Outcome
  | some f => .fault f
  | none => .done

/-- The fault of the first of some threads that panicked. -/
def firstPanic (panicked : Nat → Bool) (hs : List Handle) : Option Fault :=
  (hs.find? fun h => panicked h.thread).map fun h => .stagePanicked h.stage

/-- The ledger after so many more joins. -/
def Ledger.joining (l : Ledger) (n : Nat) : Ledger :=
  { l with threadsJoined := l.threadsJoined + n }

/-- The events of joining some threads. -/
def joinings (hs : List Handle) : List Event := hs.map fun h => .joined h.stage

variable {panicked : Nat → Bool} {hs : List Handle} {first : Option Fault}

theorem firstPanic_append (panicked : Nat → Bool) (hs hs' : List Handle) :
    firstPanic panicked (hs ++ hs') = (firstPanic panicked hs).or (firstPanic panicked hs') := by
  simp only [firstPanic, List.find?_append, Option.map_or]

theorem firstPanic_singleton (panicked : Nat → Bool) (h : Handle) : firstPanic panicked [h] =
    if panicked h.thread then some (.stagePanicked h.stage) else none := by
  rw [firstPanic, List.find?_singleton]
  split <;> rfl

theorem firstPanic_eq_none (h : ∀ hd ∈ hs, panicked hd.thread = false) :
    firstPanic panicked hs = none := by
  rw [firstPanic, Option.map_eq_none_iff, List.find?_eq_none]
  exact fun hd hm => by rw [h hd hm]; nofun

/-- **The first panic counts**, in the order of the handles. -/
theorem joinFrom_fst (panicked : Nat → Bool) (first : Option Fault) (hs : List Handle)
    (l : Ledger) : (joinFrom panicked first hs l).1 = first.or (firstPanic panicked hs) := by
  induction hs generalizing first l with
  | nil => exact (Option.or_none ..).symm
  | cons h hs ih =>
    refine (ih _ _).trans ?_
    rw [← List.singleton_append, firstPanic_append, firstPanic_singleton, ← Option.or_assoc]
    exact congrArg (Option.or · _) (h.outcome_eq _ _)

/-- Joining all threads of some handles. -/
theorem joinAll_eq (panicked : Nat → Bool) (hs : List Handle) (l : Ledger) :
    joinAll panicked hs l = (firstPanic panicked hs, l.joining hs.length, joinings hs) := by
  refine Prod.ext (joinFrom_fst panicked none hs l) (Prod.ext ?_ ?_)
  · exact joinFrom_ledger panicked none hs l
  · exact joinFrom_events panicked none hs l

theorem dropCrew_eq (panicked : Nat → Bool) (hs : List Handle) (l : Ledger) :
    dropCrew panicked hs l = (l.joining hs.length,
      joinings hs ++ ((firstPanic panicked hs).map .warning).toList) := by
  rw [dropCrew, joinAll_eq]

/-! ## Calls -/

/-- The handles of a crew, the ledger that counts its threads, the number of the next thread, and
what was logged. -/
structure Roster where
  handles : List Handle := []
  ledger : Ledger := .empty
  next : Nat := 0
  log : List Event := []

/-- What the owner of a crew does with it. One that was dropped is followed by a new one on the same
ledger. -/
inductive Roster.Call where
  | spawn (stage : String) (outcome : SpawnOutcome)
  | join
  | drop
  deriving DecidableEq

namespace Roster

/-- What a call comes to, and what it leaves, once the threads of the crew have exited. -/
def call (panicked : Nat → Bool) (c : Roster) : Call → Outcome × Roster
  | .spawn stage .started =>
    (.done, {
      handles := c.handles ++ [⟨stage, c.next⟩]
      ledger := c.ledger.bump .threadsSpawned
      next := c.next + 1
      log := c.log ++ [.spawned stage] })
  | .spawn stage .refused => (.fault (.spawn stage none), c)
  | .spawn _ .unwound => (.panicked, c)
  | .join =>
    let (fault, ledger, events) := joinAll panicked c.handles c.ledger
    (.ofFault fault, { c with handles := [], ledger, log := c.log ++ events })
  | .drop =>
    let (ledger, events) := dropCrew panicked c.handles c.ledger
    (.done, { c with handles := [], ledger, log := c.log ++ events })

/-- The crew after the threads `gone` were joined, when those of `rest` are left. -/
def joining (c : Roster) (gone rest : List Handle) : Roster :=
  { c with
    handles := rest
    ledger := c.ledger.joining gone.length
    log := c.log ++ joinings gone }

/-- The crew after all of its threads were joined. -/
def joined (c : Roster) : Roster := c.joining c.handles []

theorem joining_nil (c : Roster) : c.joining [] c.handles = c := by
  rw [joining, joinings, List.map_nil, List.append_nil]
  rfl

theorem call_join (panicked : Nat → Bool) (c : Roster) :
    c.call panicked .join = (.ofFault (firstPanic panicked c.handles), c.joined) := by
  rw [call, joinAll_eq]
  rfl

theorem call_drop (panicked : Nat → Bool) (c : Roster) :
    c.call panicked .drop = (.done, { c.joined with
      log := c.joined.log ++ ((firstPanic panicked c.handles).map .warning).toList }) := by
  rw [call, dropCrew_eq]
  simp only [joined, joining, List.append_assoc]

/-- What joining a crew comes to. -/
structure JoinLaw (panicked : Nat → Bool) (c : Roster) : Prop where
  /-- All threads are joined, whichever of them panicked. -/
  joins : (c.call panicked .join).2 = c.joined
  /-- The first in the order of starting is told, whichever panicked first in time. -/
  fault : ∀ before h after, c.handles = before ++ h :: after →
    (∀ g ∈ before, panicked g.thread = false) → panicked h.thread = true →
    (c.call panicked .join).1 = .fault (.stagePanicked h.stage)
  done : (∀ h ∈ c.handles, panicked h.thread = false) → (c.call panicked .join).1 = .done
  /-- There is nothing left to join. -/
  again : c.joined.call panicked .join = (.done, c.joined)
  /-- A crew that is dropped does the same, and warns of the fault that would have been told. -/
  drop_done : (c.call panicked .join).1 = .done → (c.call panicked .drop).2 = c.joined
  drop_fault : ∀ f, (c.call panicked .join).1 = .fault f →
    (c.call panicked .drop).2 = { c.joined with log := c.joined.log ++ [.warning f] }

theorem joinLaw (panicked : Nat → Bool) (c : Roster) : JoinLaw panicked c := by
  constructor
  · rw [call_join]
  · intro before h after hhandles hbefore hpanicked
    rw [call_join, hhandles, firstPanic_append, firstPanic_eq_none hbefore, Option.none_or,
      ← List.singleton_append, firstPanic_append, firstPanic_singleton, if_pos hpanicked]
    rfl
  · intro hquiet
    rw [call_join, firstPanic_eq_none hquiet]
    rfl
  · rw [call_join]
    exact congrArg (Prod.mk _) c.joined.joining_nil
  · rw [call_join, call_drop]
    cases firstPanic panicked c.handles with
    | none => exact fun _ => congrArg (fun log => { c.joined with log }) (List.append_nil _)
    | some f => nofun
  · rw [call_join, call_drop]
    cases firstPanic panicked c.handles with
    | none => nofun
    | some f => rintro _ ⟨⟩; rfl

/-- What some calls on a new crew come to, one after the other. -/
def serve (panicked : Nat → Bool) (calls : List Call) : List Outcome × Roster :=
  calls.foldl (fun (answers, c) call =>
    (answers ++ [(c.call panicked call).1], (c.call panicked call).2)) ([], {})

theorem serve_concat (panicked : Nat → Bool) (calls : List Call) (call : Call) :
    serve panicked (calls ++ [call]) =
      ((serve panicked calls).1 ++ [((serve panicked calls).2.call panicked call).1],
        ((serve panicked calls).2.call panicked call).2) := by
  rw [serve, List.foldl_append]
  rfl

end Roster

/-! ## Calls while the threads run -/

/-- A crew, its owner and its threads. -/
structure Muster where
  roster : Roster := {}
  /-- What the owner is still to call. The first call may be under way. -/
  calls : List Roster.Call
  answers : List Outcome := []
  /-- The threads that have exited, in the order in which they did. -/
  exited : List Nat := []
  /-- The first fault that the call under way has met with. -/
  first : Option Fault := none
  /-- The threads that were joined, in the order in which they were. -/
  joined : List Handle := []

/-- Who goes on. -/
inductive Muster.Turn where
  | owner
  | exit (thread : Nat)
  deriving DecidableEq

namespace Muster

/-- The call under way joins the thread `h`, or waits for it. -/
def joinNext (panicked : Nat → Bool) (m : Muster) (h : Handle) (rest : List Handle) : Muster :=
  if h.thread ∈ m.exited then
    let (first, ledger, event) := h.join (panicked h.thread) m.first m.roster.ledger
    { m with
      roster := { m.roster with handles := rest, ledger, log := m.roster.log ++ [event] }
      first
      joined := m.joined ++ [h] }
  else m

/-- The call under way has joined all threads, and it is answered. -/
def answer (m : Muster) (calls : List Roster.Call) (outcome : Outcome) (warnings : List Event) :
    Muster :=
  { m with
    roster := { m.roster with log := m.roster.log ++ warnings }
    calls
    answers := m.answers ++ [outcome]
    first := none }

/-- What a turn leaves; `panicked` tells how the threads exit. -/
def step (panicked : Nat → Bool) (m : Muster) : Turn → Muster
  | .exit thread =>
    if thread < m.roster.next ∧ thread ∉ m.exited then
      { m with exited := m.exited ++ [thread] }
    else m
  | .owner =>
    match m.calls, m.roster.handles with
    | [], _ => m
    | .spawn stage outcome :: calls, _ =>
      let (answer, roster) := m.roster.call panicked (.spawn stage outcome)
      { m with roster, calls, answers := m.answers ++ [answer] }
    | _ :: _, h :: rest => m.joinNext panicked h rest
    | .join :: calls, [] => m.answer calls (.ofFault m.first) []
    | .drop :: calls, [] => m.answer calls .done (m.first.map .warning).toList

/-- What some turns leave. -/
def play (panicked : Nat → Bool) (m : Muster) (turns : List Turn) : Muster :=
  turns.foldl (step panicked) m

/-- The owner has made the calls `done` as if all threads had exited before, and the call under way
has joined the threads `gone`. -/
structure Follows (panicked : Nat → Bool) (calls done : List Roster.Call) (gone : List Handle)
    (m : Muster) : Prop where
  calls : calls = done ++ m.calls
  answers : m.answers = (Roster.serve panicked done).1
  handles : (Roster.serve panicked done).2.handles = gone ++ m.roster.handles
  roster : m.roster = (Roster.serve panicked done).2.joining gone m.roster.handles
  first : m.first = firstPanic panicked gone
  /-- Only a call that joins is ever under way. -/
  waits : gone = [] ∨ ∃ rest, m.calls = .join :: rest ∨ m.calls = .drop :: rest

variable {calls done : List Roster.Call} {gone : List Handle} {m : Muster}

theorem follows_start (panicked : Nat → Bool) (calls : List Roster.Call) :
    Follows panicked calls [] [] { calls } :=
  ⟨rfl, rfl, rfl, rfl, rfl, .inl rfl⟩

namespace Follows

/-- Nothing is under way: the crew is as the calls have left it. -/
theorem roster_eq (h : Follows panicked calls done [] m) :
    m.roster = (Roster.serve panicked done).2 := by
  have hroster := h.roster
  rwa [← List.nil_append m.roster.handles, ← h.handles, Roster.joining_nil] at hroster

theorem joinNext (h : Follows panicked calls done gone m) {hd : Handle} {rest : List Handle}
    (hhandles : m.roster.handles = hd :: rest)
    (hcalls : ∃ rest, m.calls = .join :: rest ∨ m.calls = .drop :: rest) :
    ∃ gone, Follows panicked calls done gone (m.joinNext panicked hd rest) := by
  rw [Muster.joinNext]
  split
  · refine ⟨gone ++ [hd], h.calls, h.answers, ?_, ?_, ?_, .inr hcalls⟩
    · rw [h.handles, hhandles, List.append_assoc]
      rfl
    · rw [h.roster]
      simp only [Roster.joining, joinings, Handle.join, Ledger.joining, List.map_append,
        List.append_assoc, List.length_append]
      rfl
    · rw [firstPanic_append, firstPanic_singleton, ← h.first]
      exact hd.outcome_eq _ _
  · exact ⟨gone, h⟩

/-- The call under way has joined all threads. -/
theorem all_joined (h : Follows panicked calls done gone m) (hhandles : m.roster.handles = []) :
    m.roster = (Roster.serve panicked done).2.joined ∧
      m.first = firstPanic panicked (Roster.serve panicked done).2.handles := by
  have hgone := h.handles
  rw [hhandles, List.append_nil] at hgone
  have hroster := h.roster
  rw [hhandles, ← hgone] at hroster
  exact ⟨hroster, hgone ▸ h.first⟩

theorem answer (h : Follows panicked calls done gone m) {call : Roster.Call}
    {rest : List Roster.Call} {outcome : Outcome} {warnings : List Event}
    (hcalls : m.calls = call :: rest)
    (hcall : (Roster.serve panicked done).2.call panicked call = (outcome,
      { m.roster with log := m.roster.log ++ warnings })) :
    Follows panicked calls (done ++ [call]) [] (m.answer rest outcome warnings) := by
  have hserve := Roster.serve_concat panicked done call
  rw [hcall] at hserve
  refine ⟨?_, ?_, ?_, ?_, rfl, .inl rfl⟩
  · rw [h.calls, hcalls, List.append_assoc]
    rfl
  · rw [hserve, ← h.answers]
    rfl
  · rw [hserve]
    rfl
  · rw [hserve]
    exact (Roster.joining_nil _).symm

/-- A call that waits for no thread is answered at once. -/
theorem spawn (h : Follows panicked calls done gone m) {stage : String} {outcome : SpawnOutcome}
    {rest : List Roster.Call} (hcalls : m.calls = .spawn stage outcome :: rest) :
    Follows panicked calls (done ++ [.spawn stage outcome]) [] { m with
      roster := (m.roster.call panicked (.spawn stage outcome)).2
      calls := rest
      answers := m.answers ++ [(m.roster.call panicked (.spawn stage outcome)).1] } := by
  have hgone : gone = [] := h.waits.resolve_right fun ⟨_, hw⟩ => by
    rw [hcalls] at hw
    exact hw.elim nofun nofun
  subst hgone
  have hserve := Roster.serve_concat panicked done (.spawn stage outcome)
  rw [← h.roster_eq] at hserve
  refine ⟨?_, ?_, ?_, ?_, h.first, .inl rfl⟩
  · rw [h.calls, hcalls, List.append_assoc]
    rfl
  · rw [hserve, ← h.answers]
  · rw [hserve]
    rfl
  · rw [hserve]
    exact (Roster.joining_nil _).symm

end Follows

/-- **It makes no difference when the threads exit.** -/
theorem Follows.step (h : Follows panicked calls done gone m) (t : Turn) :
    ∃ done gone, Follows panicked calls done gone (m.step panicked t) := by
  cases t with
  | exit thread =>
    rw [Muster.step]
    split
    · exact ⟨done, gone, h.calls, h.answers, h.handles, h.roster, h.first, h.waits⟩
    · exact ⟨done, gone, h⟩
  | owner =>
    rw [Muster.step]
    split
    · exact ⟨done, gone, h⟩
    · rename_i hcalls
      exact ⟨_, _, h.spawn hcalls⟩
    · rename_i call rest hd handles hspawn hcalls hhandles
      refine ⟨done, h.joinNext hhandles ⟨rest, ?_⟩⟩
      cases call with
      | spawn stage outcome => exact (hspawn stage outcome rfl).elim
      | join => exact .inl hcalls
      | drop => exact .inr hcalls
    · rename_i hcalls hhandles
      obtain ⟨hroster, hfirst⟩ := h.all_joined hhandles
      refine ⟨_, _, h.answer hcalls ?_⟩
      rw [Roster.call_join, hfirst, ← hroster, List.append_nil]
    · rename_i hcalls hhandles
      obtain ⟨hroster, hfirst⟩ := h.all_joined hhandles
      refine ⟨_, _, h.answer hcalls ?_⟩
      rw [Roster.call_drop, hfirst, ← hroster]

theorem Follows.play (h : Follows panicked calls done gone m) (turns : List Turn) :
    ∃ done gone, Follows panicked calls done gone (m.play panicked turns) := by
  induction turns generalizing m done gone with
  | nil => exact ⟨done, gone, h⟩
  | cons t turns ih =>
    obtain ⟨done, gone, h⟩ := h.step t
    exact ih h

/-- Every thread that was started was joined once, or its handle is held: in the order of starting,
and only after it has exited. The ledger counts them. -/
structure Accounts (m : Muster) : Prop where
  order : (m.joined ++ m.roster.handles).map Handle.thread = List.range m.roster.next
  exited : ∀ h ∈ m.joined, h.thread ∈ m.exited
  ledger : m.roster.ledger = { threadsSpawned := m.roster.next, threadsJoined := m.joined.length }

theorem accounts_start (calls : List Roster.Call) : Accounts { calls } :=
  ⟨rfl, fun _ hm => absurd hm List.not_mem_nil, rfl⟩

theorem Accounts.spawn (h : m.Accounts) (stage : String) (outcome : SpawnOutcome)
    (calls : List Roster.Call) (answers : List Outcome) : Accounts { m with
      roster := (m.roster.call panicked (.spawn stage outcome)).2
      calls
      answers } := by
  cases outcome with
  | started =>
    refine ⟨?_, h.exited, ?_⟩
    · simp only [Roster.call]
      rw [List.range_succ, ← h.order, ← List.append_assoc]
      exact List.map_append
    · simp only [Roster.call]
      rw [h.ledger]
      rfl
  | refused => exact ⟨h.order, h.exited, h.ledger⟩
  | unwound => exact ⟨h.order, h.exited, h.ledger⟩

theorem Accounts.joinNext (h : m.Accounts) {hd : Handle} {rest : List Handle}
    (hhandles : m.roster.handles = hd :: rest) : (m.joinNext panicked hd rest).Accounts := by
  rw [Muster.joinNext]
  split
  · rename_i hexit
    refine ⟨?_, ?_, ?_⟩
    · have horder := h.order
      rw [hhandles] at horder
      simp only [List.append_assoc, List.singleton_append]
      exact horder
    · intro g hg
      rcases List.mem_append.mp hg with hg | hg
      · exact h.exited g hg
      · exact List.mem_singleton.mp hg ▸ hexit
    · simp only [Handle.join]
      rw [h.ledger, List.length_append]
      rfl
  · exact h

/-- **A turn joins the next thread, or none.** -/
theorem Accounts.step (h : m.Accounts) (panicked : Nat → Bool) (t : Turn) :
    (m.step panicked t).Accounts := by
  cases t with
  | exit thread =>
    rw [Muster.step]
    split
    · exact ⟨h.order, fun g hg => List.mem_append_left _ (h.exited g hg), h.ledger⟩
    · exact h
  | owner =>
    rw [Muster.step]
    split
    · exact h
    · exact h.spawn ..
    · rename_i hhandles
      exact h.joinNext hhandles
    · exact ⟨h.order, h.exited, h.ledger⟩
    · exact ⟨h.order, h.exited, h.ledger⟩

theorem Accounts.play (h : m.Accounts) (panicked : Nat → Bool) (turns : List Turn) :
    (m.play panicked turns).Accounts := by
  induction turns generalizing m with
  | nil => exact h
  | cons t turns ih => exact ih (h.step panicked t)

/-- A call that joins comes to its end once the threads have. -/
theorem returns {call : Roster.Call} {rest : List Roster.Call} (hcalls : m.calls = call :: rest)
    (hcall : call = .join ∨ call = .drop) (hexit : ∀ h ∈ m.roster.handles, h.thread ∈ m.exited) :
    (m.play panicked (List.replicate (m.roster.handles.length + 1) .owner)).calls = rest := by
  generalize hhandles : m.roster.handles = handles at hexit
  induction handles generalizing m with
  | nil =>
    have hstep : (m.step panicked .owner).calls = rest := by
      rcases hcall with rfl | rfl <;> rw [Muster.step, hcalls, hhandles] <;> rfl
    exact hstep
  | cons hd handles ih =>
    obtain ⟨hfirst, hlater⟩ := List.forall_mem_cons.mp hexit
    have hstep : m.step panicked .owner = m.joinNext panicked hd handles := by
      rcases hcall with rfl | rfl <;> rw [Muster.step, hcalls, hhandles]
    show ((m.step panicked .owner).play panicked _).calls = rest
    rw [hstep, Muster.joinNext, if_pos hfirst]
    exact ih hcalls rfl hlater

/-- What holds of a crew at any time, while its threads exit in any order. -/
structure Serves (panicked : Nat → Bool) (calls : List Roster.Call) (m : Muster) : Prop where
  follows : ∃ done gone, Follows panicked calls done gone m
  accounts : m.Accounts
  /-- A call that joins ends once the threads have exited. -/
  returns : ∀ call rest, m.calls = call :: rest → call = .join ∨ call = .drop →
    (∀ h ∈ m.roster.handles, h.thread ∈ m.exited) →
    (m.play panicked (List.replicate (m.roster.handles.length + 1) .owner)).calls = rest

/-- **A crew serves its owner as if its threads exited at once.** -/
theorem serves (panicked : Nat → Bool) (calls : List Roster.Call) (turns : List Turn) :
    Serves panicked calls (play panicked { calls } turns) where
  follows := (follows_start panicked calls).play turns
  accounts := (accounts_start calls).play panicked turns
  returns _ _ hcalls hcall hexit := returns hcalls hcall hexit

/-- The second and the third of three threads panic, the third of them first. The first join waits
for all of them. -/
example : (play (fun thread => 0 < thread)
    { calls := [.spawn "a" .started, .spawn "b" .started, .spawn "c" .started, .join, .join] }
    [.owner, .owner, .owner, .exit 2, .owner, .exit 1, .exit 0, .owner, .owner, .owner, .owner,
      .owner]).answers =
    [.done, .done, .done, .fault (.stagePanicked "b"), .done] := rfl

end Muster

end Relay

import Relay.Invocation.Run
import Relay.Proofs.Invocation.Wired

/-!
# Runs and their transcripts

`Plan.Reaches` says what a run can come to by any schedule, that is, any order in which the caller
and the stage threads move. A run leaves a transcript: what was sent, received and given to a
stage's function, by whom and in which order. `Plan.course` is the transcript of one value that
goes through the stages one after the other, up to the first that panics.
-/

namespace Relay

/-- What is done to a value. Places count the stages from one; the caller sends from place zero and
receives at the place after the last stage. -/
inductive Deed : Type 1 where
  | sent (place : Nat) {τ : Type} (value : τ)
  | received (place : Nat) {τ : Type} (value : τ)
  /-- The function of a stage was applied, on a thread of that name. -/
  | applied (place : Nat) (thread : String) {τ : Type} (value : τ)

/-- The place of the party that does it. -/
def Deed.place : Deed → Nat
  | .sent place _ | .received place _ | .applied place _ _ => place

/-- Where a deed belongs in the order of places, and of receiving, applying and sending at each. -/
def Deed.rank : Deed → Nat
  | .received place _ => 3 * place
  | .applied place _ _ => 3 * place + 1
  | .sent place _ => 3 * place + 2

@[simp] theorem Deed.rank_received (place : Nat) {τ : Type} (x : τ) :
    (received place x).rank = 3 * place := rfl

@[simp] theorem Deed.rank_applied (place : Nat) (thread : String) {τ : Type} (x : τ) :
    (applied place thread x).rank = 3 * place + 1 := rfl

@[simp] theorem Deed.rank_sent (place : Nat) {τ : Type} (x : τ) :
    (sent place x).rank = 3 * place + 2 := rfl

/-- What is done to a value that waits for the party at place `i`, if a chain begins there. -/
def Chain.course {α β : Type} (threadName : String → String) (i : Nat) :
    Chain α β → α → List Deed
  | .nil, a => [.received i a]
  | .cons s rest, a =>
    .received i a :: .applied i (threadName s.name) a ::
      match s.body (threadName s.name) a with
      | some b => .sent i b :: rest.course threadName (i + 1) b
      | none => []

/-- What is done when the caller sends the input and then one party after the other moves. -/
def Plan.course {α ω : Type} (p : Plan α ω) : List Deed :=
  .sent 0 p.input :: p.pipeline.chain.course p.tuning.threadName 1 p.input

/-- What may be done to a value in a run of a plan: it is what the stages before that place make of
the input, and the function of a stage is applied on the thread of its name. -/
inductive Plan.Does {α ω : Type} (p : Plan α ω) : Deed → Prop where
  | sent {τ : Type} {c : Chain α τ} {rest : Chain τ ω} {x : τ} :
    c.append rest = p.pipeline.chain → c.eval p.tuning.threadName p.input = .ok x →
    p.Does (.sent c.length x)
  | received {τ : Type} {c : Chain α τ} {rest : Chain τ ω} {x : τ} :
    c.append rest = p.pipeline.chain → c.eval p.tuning.threadName p.input = .ok x →
    p.Does (.received (c.length + 1) x)
  | applied {σ τ : Type} {c : Chain α τ} {s : Stage τ σ} {rest : Chain σ ω} {x : τ} :
    c.append (.cons s rest) = p.pipeline.chain → c.eval p.tuning.threadName p.input = .ok x →
    p.Does (.applied (c.length + 1) (p.tuning.threadName s.name) x)

/-! ## The course of a value -/

/-- From one place on, everything happens later than at that place, in order and once. -/
theorem Chain.course_ranked {α β : Type} (t : String → String) (c : Chain α β) (i : Nat) (a : α) :
    (c.course t i a).Pairwise (·.rank < ·.rank) ∧ ∀ d ∈ c.course t i a, 3 * i ≤ d.rank := by
  induction c generalizing i with
  | nil =>
    refine ⟨List.pairwise_singleton _ _, fun d hd => ?_⟩
    rw [course, List.mem_singleton] at hd
    subst hd
    exact Nat.le_refl _
  | cons s rest ih =>
    rw [course]
    cases s.body (t s.name) a with
    | none =>
      simp only [List.pairwise_cons, List.mem_cons, List.not_mem_nil, or_false, forall_eq,
        forall_eq_or_imp, Deed.rank_received, Deed.rank_applied]
      exact ⟨⟨by omega, nofun, .nil⟩, by omega, by omega⟩
    | some b =>
      obtain ⟨hpair, hle⟩ := ih (i + 1) b
      have hle' : ∀ d ∈ rest.course t (i + 1) b, 3 * i + 2 < d.rank := by
        intro d hd
        have := hle d hd
        omega
      simp only [List.pairwise_cons, List.mem_cons, forall_eq_or_imp, Deed.rank_received,
        Deed.rank_applied, Deed.rank_sent]
      refine ⟨⟨⟨by omega, by omega, fun d hd => ?_⟩, ⟨by omega, fun d hd => ?_⟩, hle', hpair⟩,
        by omega, by omega, by omega, fun d hd => ?_⟩
      all_goals
        have := hle' d hd
        omega

/-- In a course everything happens in order, and once. -/
theorem Plan.course_ranked {α ω : Type} (p : Plan α ω) :
    p.course.Pairwise (·.rank < ·.rank) := by
  obtain ⟨hpair, hle⟩ := p.pipeline.chain.course_ranked p.tuning.threadName 1 p.input
  refine List.pairwise_cons.mpr ⟨fun d hd => ?_, hpair⟩
  have := hle d hd
  show 2 < d.rank
  omega

/-- What is done to a value that has come to a chain in a run, after the stages of `c`. -/
theorem Plan.does_of_mem_course {α τ ω : Type} {p : Plan α ω} (rest : Chain τ ω) {c : Chain α τ}
    {x : τ} (hc : c.append rest = p.pipeline.chain)
    (hx : c.eval p.tuning.threadName p.input = .ok x) :
    ∀ d ∈ rest.course p.tuning.threadName (c.length + 1) x, p.Does d := by
  intro d hd
  induction rest with
  | nil =>
    rw [Chain.course, List.mem_singleton] at hd
    exact hd ▸ .received hc hx
  | cons s rest ih =>
    rw [Chain.course, List.mem_cons, List.mem_cons] at hd
    rcases hd with rfl | rfl | hd
    · exact .received hc hx
    · exact .applied hc hx
    · cases hb : s.body (p.tuning.threadName s.name) x with
      | none => rw [hb] at hd; cases hd
      | some b =>
        have hc' : (c.snoc s).append rest = p.pipeline.chain := by rw [Chain.snoc_append, hc]
        have hb' : (c.snoc s).eval p.tuning.threadName p.input = .ok b := by
          rw [Chain.eval_snoc, hx]
          simp only [Except.bind, hb]
        rw [hb] at hd
        rw [← Chain.length_snoc c s] at hd
        rcases List.mem_cons.mp hd with rfl | hd
        · exact .sent hc' hb'
        · exact ih hc' hb' hd

/-- All that is done in a course is what a run may do. -/
theorem Plan.does_of_course {α ω : Type} (p : Plan α ω) : ∀ d ∈ p.course, p.Does d := by
  intro d hd
  rcases List.mem_cons.mp hd with rfl | hd
  · exact .sent (c := .nil) rfl rfl
  · exact p.does_of_mem_course p.pipeline.chain (c := .nil) rfl rfl d hd

/-! ## Runs -/

/-- What an attempt comes to, if it succeeds. -/
def Transfer.done? {α : Type} : Transfer α → Option α
  | .done a => some a
  | .blocked | .closed => none

/-- What the next step of a thread does to a value, if it is not blocked. -/
def Lane.deed? {α β : Type} (lane : Lane α β) (source : Channel α) : Option Deed :=
  match lane.worker with
  | .waiting => source.receive.done?.map fun x => .received lane.index x.1
  | .holding a => some (.applied lane.index lane.thread a)
  | .sending b => (lane.out.send b).done?.map fun _ => .sent lane.index b
  | _ => none

/-- What the next step of the thread at position `i` does to a value, if it is not blocked. -/
def Wired.deed? {α : Type} (i : Nat) {β : Type} : Wired α β → Option Deed
  | .entry _ => none
  | .lane w l => if i = w.size then l.deed? w.last else w.deed? i

/-- What the next step of the caller does to a value, if it is not blocked. -/
def Plan.deed? {α ω β : Type} (p : Plan α ω) (w : Wired α β) : Phase α ω β → Option Deed
  | .sending => (w.first.send p.input).done?.map fun _ => .sent 0 p.input
  | .receiving => w.last.receive.done?.map fun x => .received (w.size + 1) x.1
  | _ => none

/-- What the next step of one party does to a value, if it is not blocked. -/
def Invocation.deed? {α ω : Type} (move : Move) (v : Invocation α ω) : Option Deed :=
  match move with
  | .caller => v.plan.deed? v.wired v.phase
  | .thread i => v.wired.deed? i

/-- What a run can come to: the moves so far, its transcript, the ledger and the state. -/
inductive Plan.Reaches {α ω : Type} (p : Plan α ω) (l₀ : Ledger) :
    List Move → List Deed → Ledger → Invocation α ω → Prop where
  | start : p.Reaches l₀ [] [] l₀ p.start
  | step {schedule : List Move} {deeds : List Deed} {l l' : Ledger} {v v' : Invocation α ω}
      (move : Move) : p.Reaches l₀ schedule deeds l v → v.step move l = some (l', v') →
      p.Reaches l₀ (schedule ++ [move]) (deeds ++ (v.deed? move).toList) l' v'

namespace Invocation

variable {α ω : Type} {l : Ledger} {v : Invocation α ω}

theorem step_of_advance {s : Ledger × Invocation α ω} (h : v.advance l = some s) :
    ∃ move, v.step move l = some s := by
  obtain ⟨move, -, hs⟩ := List.exists_of_findSome?_eq_some h
  exact ⟨move, hs⟩

/-- The driver of a run stops only where no party can move. -/
theorem step_eq_none_of_advance (h : v.advance l = none) (move : Move) : v.step move l = none := by
  rw [advance, List.findSome?_eq_none_iff] at h
  cases move with
  | caller => exact h _ List.mem_cons_self
  | thread i =>
    by_cases hi : i < v.wired.size
    · exact h _ (List.mem_cons_of_mem _ (List.mem_map_of_mem (List.mem_range.mpr hi)))
    · rw [step, Wired.step_eq_none (Nat.le_of_not_lt hi)]; rfl

end Invocation

/-- Whatever the driver does is one of the schedules. -/
theorem Plan.Reaches.drive {α ω : Type} {p : Plan α ω} {l₀ l : Ledger} {schedule : List Move}
    {deeds : List Deed} {v : Invocation α ω} (h : p.Reaches l₀ schedule deeds l v) (fuel : Nat) :
    ∃ schedule' deeds', p.Reaches l₀ (schedule ++ schedule') (deeds ++ deeds') (v.drive fuel l).1
      (v.drive fuel l).2 := by
  induction fuel generalizing schedule deeds l v with
  | zero => exact ⟨[], [], by rw [List.append_nil, List.append_nil]; exact h⟩
  | succ fuel ih =>
    rw [Invocation.drive]
    cases ha : v.advance l with
    | none => exact ⟨[], [], by rw [List.append_nil, List.append_nil]; exact h⟩
    | some s =>
      obtain ⟨move, hs⟩ := Invocation.step_of_advance ha
      obtain ⟨schedule', deeds', hd⟩ := ih (h.step move hs)
      rw [List.append_assoc, List.append_assoc] at hd
      exact ⟨_, _, hd⟩

/-- Two stages, of which the second panics on what is too big for it. -/
def Plan.specimen (input : Nat) (host : Nat → String → SpawnOutcome) : Plan Nat Nat where
  pipeline := (Pipeline.new.stage (.pure "double" (2 * ·))).stage
    ⟨"check", fun _ n => if n < 10 then some n else none⟩
  input
  host

end Relay

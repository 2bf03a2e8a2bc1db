import Relay.Crew
import Relay.Invocation.Wired
import Relay.Proofs.Chain

/-!
# What the steps of stage threads leave alone

The stages that are wired (`Wired.chain`) and the handles of their threads (`Wired.handles`) depend
on nothing that a step of a thread changes (`chain_step`, `handles_step`). Each step takes the
thread closer to its end (`stepsLeft_step`), and what is known of a thread that ended stays known
(`exit?_step`).
-/

namespace Relay

variable {α β γ : Type}

/-- The value that a thread holds between receiving one and sending one. -/
def Worker.load : Worker α β → Nat
  | .holding _ | .sending _ => 1
  | _ => 0

/-- A step of a thread that ran until then takes it closer to its end, and leaves its stage, its
place and its name alone. -/
theorem Lane.step_inv {lane lane' : Lane α β} {source source' : Channel α}
    (h : lane.step source = some (lane', source')) :
    lane'.stage = lane.stage ∧ lane'.index = lane.index ∧ lane'.thread = lane.thread ∧
      lane.worker.exit? = none ∧ lane'.worker.stepsLeft < lane.worker.stepsLeft := by
  obtain ⟨stage, index, thread, out, worker, calls, notes⟩ := lane
  cases worker with
  | waiting =>
    simp only [step, Option.map_eq_some_iff, Prod.mk.injEq] at h
    obtain ⟨⟨worker, source'', note⟩, hw, rfl, rfl⟩ := h
    refine ⟨rfl, rfl, rfl, rfl, ?_⟩
    unfold Worker.receive at hw
    split at hw <;> simp only [Option.some.injEq, Prod.mk.injEq, reduceCtorEq] at hw <;>
      simp [← hw.1, Worker.stepsLeft]
  | holding a =>
    simp only [step, Option.some.injEq, Prod.mk.injEq] at h
    obtain ⟨rfl, rfl⟩ := h
    refine ⟨rfl, rfl, rfl, rfl, ?_⟩
    simp only [Worker.compute]
    split <;> simp [Worker.stepsLeft]
  | sending b =>
    simp only [step, Option.map_eq_some_iff, Prod.mk.injEq] at h
    obtain ⟨⟨worker, out', note⟩, hw, rfl, rfl⟩ := h
    refine ⟨rfl, rfl, rfl, rfl, ?_⟩
    unfold Worker.deliver at hw
    split at hw <;> simp only [Option.some.injEq, Prod.mk.injEq, reduceCtorEq] at hw <;>
      simp [← hw.1, Worker.stepsLeft]
  | leaving panicked =>
    simp only [step, Option.some.injEq, Prod.mk.injEq] at h
    obtain ⟨rfl, rfl⟩ := h
    exact ⟨rfl, rfl, rfl, rfl, by simp [Worker.stepsLeft]⟩
  | exited panicked => simp [step] at h

namespace Wired

/-- The stages that are wired. -/
def chain {β : Type} : Wired α β → Chain α β
  | .entry _ => .nil
  | .lane w l => w.chain.snoc l.stage

/-- The handles of the threads, in the order of their start. -/
def handles {β : Type} : Wired α β → List Handle
  | .entry _ => []
  | .lane w l => w.handles ++ [⟨l.stage.name, w.size⟩]

/-- The values in the channels and with the threads. -/
def payloads {β : Type} : Wired α β → Nat
  | .entry c => c.occupancy
  | .lane w l => w.payloads + l.worker.load + l.out.occupancy

/-- Every lane satisfies `P`. -/
def All (P : {β γ : Type} → Lane β γ → Prop) {β : Type} : Wired α β → Prop
  | .entry _ => True
  | .lane w l => w.All P ∧ P l

/-! ## Changing the last channel or the first one -/

@[simp] theorem last_setLast (w : Wired α β) (c : Channel β) : (w.setLast c).last = c := by
  cases w <;> rfl

@[simp] theorem size_setLast (w : Wired α β) (c : Channel β) : (w.setLast c).size = w.size := by
  cases w <;> rfl

@[simp] theorem chain_setLast (w : Wired α β) (c : Channel β) : (w.setLast c).chain = w.chain := by
  cases w <;> rfl

@[simp] theorem handles_setLast (w : Wired α β) (c : Channel β) :
    (w.setLast c).handles = w.handles := by
  cases w <;> rfl

@[simp] theorem exit?_setLast (w : Wired α β) (c : Channel β) (i : Nat) :
    (w.setLast c).exit? i = w.exit? i := by
  cases w <;> rfl

@[simp] theorem stepsLeft_setLast (w : Wired α β) (c : Channel β) :
    (w.setLast c).stepsLeft = w.stepsLeft := by
  cases w <;> rfl

@[simp] theorem size_mapFirst (f : Channel α → Channel α) (w : Wired α β) :
    (w.mapFirst f).size = w.size := by
  induction w with
  | entry c => rfl
  | lane w l ih => exact congrArg (· + 1) ih

@[simp] theorem chain_mapFirst (f : Channel α → Channel α) (w : Wired α β) :
    (w.mapFirst f).chain = w.chain := by
  induction w with
  | entry c => rfl
  | lane w l ih => exact congrArg (Chain.snoc · l.stage) ih

@[simp] theorem handles_mapFirst (f : Channel α → Channel α) (w : Wired α β) :
    (w.mapFirst f).handles = w.handles := by
  induction w with
  | entry c => rfl
  | lane w l ih => simp only [mapFirst, handles, ih, size_mapFirst]

@[simp] theorem stepsLeft_mapFirst (f : Channel α → Channel α) (w : Wired α β) :
    (w.mapFirst f).stepsLeft = w.stepsLeft := by
  induction w with
  | entry c => rfl
  | lane w l ih => exact congrArg (· + l.worker.stepsLeft) ih

theorem length_chain (w : Wired α β) : w.chain.length = w.size := by
  induction w with
  | entry c => rfl
  | lane w l ih => rw [chain, Chain.length_snoc, ih, size]

theorem length_names_chain (w : Wired α β) : w.chain.names.length = w.size := by
  rw [Chain.length_names, length_chain]

/-- The threads of a crew are numbered by the lanes that came before them. -/
theorem thread_lt_size {w : Wired α β} {h : Handle} (hm : h ∈ w.handles) : h.thread < w.size := by
  induction w with
  | entry c => exact absurd hm List.not_mem_nil
  | lane w l ih =>
    rw [handles, List.mem_append, List.mem_singleton] at hm
    rcases hm with hm | rfl
    · exact Nat.lt_succ_of_lt (ih hm)
    · exact Nat.lt_succ_self _

/-! ## Steps of threads -/

/-- A step is that of the last lane, or a step among the lanes before it. -/
theorem step_lane {i : Nat} {w : Wired α β} {l : Lane β γ} {v : Wired α γ}
    (h : (lane w l).step i = some v) :
    (∃ l' c, i = w.size ∧ l.step w.last = some (l', c) ∧ v = lane (w.setLast c) l') ∨
      ∃ w', i ≠ w.size ∧ w.step i = some w' ∧ v = lane w' l := by
  rw [step] at h
  split at h
  · rename_i hi
    obtain ⟨⟨l', c⟩, hl, rfl⟩ := Option.map_eq_some_iff.mp h
    exact .inl ⟨l', c, hi, hl, rfl⟩
  · rename_i hi
    obtain ⟨w', hw, rfl⟩ := Option.map_eq_some_iff.mp h
    exact .inr ⟨w', hi, hw, rfl⟩

/-- Only threads that were started take steps. -/
theorem step_eq_none {i : Nat} {w : Wired α β} (h : w.size ≤ i) : w.step i = none := by
  induction w with
  | entry c => rfl
  | lane w l ih =>
    rw [size] at h
    rw [step, if_neg (by omega), ih (by omega)]; rfl

theorem size_step {i : Nat} {w w' : Wired α β} (h : w.step i = some w') : w'.size = w.size := by
  induction w with
  | entry c => cases h
  | lane w l ih =>
    obtain ⟨l', c, -, -, rfl⟩ | ⟨w'', -, hw, rfl⟩ := step_lane h
    · simp only [size, size_setLast]
    · simp only [size, ih hw]

theorem chain_step {i : Nat} {w w' : Wired α β} (h : w.step i = some w') : w'.chain = w.chain := by
  induction w with
  | entry c => cases h
  | lane w l ih =>
    obtain ⟨l', c, -, hl, rfl⟩ | ⟨w'', -, hw, rfl⟩ := step_lane h
    · simp only [chain, chain_setLast, (Lane.step_inv hl).1]
    · simp only [chain, ih hw]

theorem handles_step {i : Nat} {w w' : Wired α β} (h : w.step i = some w') :
    w'.handles = w.handles := by
  induction w with
  | entry c => cases h
  | lane w l ih =>
    obtain ⟨l', c, -, hl, rfl⟩ | ⟨w'', -, hw, rfl⟩ := step_lane h
    · simp only [handles, handles_setLast, size_setLast, (Lane.step_inv hl).1]
    · simp only [handles, ih hw, size_step hw]

/-- Only a thread that runs takes steps, so the others end as they did. -/
theorem exit?_step {i j : Nat} {w w' : Wired α β} {panicked : Bool} (h : w.step i = some w')
    (hj : w.exit? j = some panicked) : w'.exit? j = some panicked := by
  induction w with
  | entry c => cases h
  | lane w l ih =>
    obtain ⟨l', c, -, hl, rfl⟩ | ⟨w'', -, hw, rfl⟩ := step_lane h
    · simp only [exit?, size_setLast, exit?_setLast] at hj ⊢
      split at hj
      · rw [(Lane.step_inv hl).2.2.2.1] at hj; cases hj
      · rename_i hne; rwa [if_neg hne]
    · simp only [exit?, size_step hw] at hj ⊢
      split at hj
      · rename_i he; rwa [if_pos he]
      · rename_i hne; rw [if_neg hne]; exact ih hw hj

theorem stepsLeft_step {i : Nat} {w w' : Wired α β} (h : w.step i = some w') :
    w'.stepsLeft < w.stepsLeft := by
  induction w with
  | entry c => cases h
  | lane w l ih =>
    obtain ⟨l', c, -, hl, rfl⟩ | ⟨w'', -, hw, rfl⟩ := step_lane h
    · simp only [stepsLeft, stepsLeft_setLast]
      have := (Lane.step_inv hl).2.2.2.2
      omega
    · simp only [stepsLeft]
      have := ih hw
      omega

end Wired

end Relay

import Relay.Proofs.Invocation.Launch

/-!
# What the caller of a run may do

`Invocation.Acts` lists the steps of the caller, each with what it needs and what it leaves, and
`Acts.of_callerStep` says that there are no others. Invariants of runs are proved by cases on these
rules.
-/

namespace Relay

variable {α ω : Type}

namespace Invocation

/-- The steps of the caller of a run. -/
inductive Acts (p : Plan α ω) : Ledger → Invocation α ω → Ledger → Invocation α ω → Prop where
  | opens {l : Ledger} {c : Custody} {w : Wired α α} :
    Acts p l ⟨p, c, w, .opening⟩
      (acquire p c l).2 ⟨p, (acquire p c l).1, w, .wiring p.pipeline.chain⟩
  | wires {l : Ledger} {c : Custody} {w : Wired α ω} :
    Acts p l ⟨p, c, w, .wiring .nil⟩
      l ⟨p, c.note [.wired c.crew.length c.records.length], w, .sending⟩
  | adds {l : Ledger} {c : Custody} {β γ : Type} {w : Wired α β} {s : Stage β γ}
    {rest : Chain γ ω} :
    Acts p l ⟨p, c, w, .wiring (.cons s rest)⟩
      (acquire p c l).2
      ⟨p, (acquire p c l).1, w, .spawning s (.ofCapacity p.tuning.capacity) rest⟩
  | starts {l : Ledger} {c : Custody} {β γ : Type} {w : Wired α β} {s : Stage β γ}
    {out : Channel γ} {rest : Chain γ ω} :
    p.host (w.size + 1) (p.tuning.threadName s.name) = .started →
    Acts p l ⟨p, c, w, .spawning s out rest⟩
      (l.bump .threadsSpawned)
      ⟨p, (c.enlist ⟨s.name, w.size⟩).note [.spawned s.name],
        .lane w { stage := s, index := w.size + 1, thread := p.tuning.threadName s.name, out },
        .wiring rest⟩
  | fails {l : Ledger} {c : Custody} {β γ : Type} {w : Wired α β} {s : Stage β γ}
    {out : Channel γ} {rest : Chain γ ω} {o : SpawnOutcome} :
    p.host (w.size + 1) (p.tuning.threadName s.name) = o → o ≠ .started →
    Acts p l ⟨p, c, w, .spawning s out rest⟩
      l ⟨p, c, w.mapLast .closeReceiver, .abandoning (p.setbackEnding s.name o)⟩
  | sends {l : Ledger} {c : Custody} {w : Wired α ω} {first : Channel α} :
    w.first.send p.input = .done first →
    Acts p l ⟨p, c, w, .sending⟩ l ⟨p, c, w.mapFirst fun _ => first, .closingFirst⟩
  | sendsNot {l : Ledger} {c : Custody} {w : Wired α ω} :
    w.first.send p.input = .closed →
    Acts p l ⟨p, c, w, .sending⟩
      l ⟨p, c, w, .forsaking (.failed ⟨[], .disconnected p.firstStage⟩)⟩
  | closesFirst {l : Ledger} {c : Custody} {w : Wired α ω} :
    Acts p l ⟨p, c, w, .closingFirst⟩ l ⟨p, c, w.mapFirst .closeSender, .receiving⟩
  | receives {l : Ledger} {c : Custody} {w : Wired α ω} {value : ω} {last : Channel ω} :
    w.last.receive = .done (value, last) →
    Acts p l ⟨p, c, w, .receiving⟩ l ⟨p, c, w.setLast last, .closingLast (some value)⟩
  | receivesNot {l : Ledger} {c : Custody} {w : Wired α ω} :
    w.last.receive = .closed →
    Acts p l ⟨p, c, w, .receiving⟩ l ⟨p, c, w, .closingLast none⟩
  | closesLast {l : Ledger} {c : Custody} {w : Wired α ω} {got : Option ω} :
    Acts p l ⟨p, c, w, .closingLast got⟩
      l ⟨p, c, w.mapLast .closeReceiver, .joining got none⟩
  | joins {l : Ledger} {c : Custody} {w : Wired α ω} {got : Option ω} {fault : Option Fault}
    {h : Handle} {crew : List Handle} {panicked : Bool} :
    c.crew = h :: crew → w.exit? h.thread = some panicked →
    Acts p l ⟨p, c, w, .joining got fault⟩
      (l.bump .threadsJoined)
      ⟨p, { c with crew }.note [.joined h.stage], w, .joining got (h.outcome panicked fault)⟩
  | reports {l : Ledger} {c : Custody} {w : Wired α ω} {got : Option ω} {fault : Fault} :
    c.crew = [] →
    Acts p l ⟨p, c, w, .joining got (some fault)⟩ l ⟨p, c, w, .dropping (.failed ⟨[], fault⟩)⟩
  | concludes {l : Ledger} {c : Custody} {w : Wired α ω} {value : ω} :
    c.crew = [] →
    Acts p l ⟨p, c, w, .joining (some value) none⟩ l ⟨p, c, w, .disposing value []⟩
  | misses {l : Ledger} {c : Custody} {w : Wired α ω} :
    c.crew = [] →
    Acts p l ⟨p, c, w, .joining none none⟩
      l ⟨p, c, w, .dropping (.failed ⟨[], .disconnected p.lastStage⟩)⟩
  | disposes {l l' : Ledger} {c : Custody} {w : Wired α ω} {value : ω}
    {done records : List Record} {record record' : Record} :
    c.records = record :: records → record.dispose l = .ok (record', l') →
    Acts p l ⟨p, c, w, .disposing value done⟩
      l' ⟨p, { c with records }.note [.disposed record'.id], w,
        .disposing value (done ++ [record'])⟩
  | disposesNot {l : Ledger} {c : Custody} {w : Wired α ω} {value : ω}
    {done records : List Record} {record : Record} {fault : Fault} :
    c.records = record :: records → record.dispose l = .error fault →
    Acts p l ⟨p, c, w, .disposing value done⟩
      l ⟨p, { c with records := done ++ record :: records }, w, .dropping (.failed ⟨[], fault⟩)⟩
  | returns {l : Ledger} {c : Custody} {w : Wired α ω} {value : ω} {done : List Record} :
    c.records = [] →
    Acts p l ⟨p, c, w, .disposing value done⟩
      l ⟨p, c.note [.finished l.snapshot], w, .finished (.returned value)⟩
  | forsakes {l : Ledger} {c : Custody} {β : Type} {w : Wired α β} {ending : Ending ω} :
    Acts p l ⟨p, c, w, .forsaking ending⟩
      l ⟨p, c, w.mapLast .closeReceiver, .abandoning ending⟩
  | abandons {l : Ledger} {c : Custody} {β : Type} {w : Wired α β} {ending : Ending ω} :
    Acts p l ⟨p, c, w, .abandoning ending⟩
      l ⟨p, c, w.mapFirst .closeSender, .reaping ending none⟩
  | reaps {l : Ledger} {c : Custody} {β : Type} {w : Wired α β} {ending : Ending ω}
    {fault : Option Fault} {h : Handle} {crew : List Handle} {panicked : Bool} :
    c.crew = h :: crew → w.exit? h.thread = some panicked →
    Acts p l ⟨p, c, w, .reaping ending fault⟩
      (l.bump .threadsJoined)
      ⟨p, { c with crew }.note [.joined h.stage], w, .reaping ending (h.outcome panicked fault)⟩
  | reaped {l : Ledger} {c : Custody} {β : Type} {w : Wired α β} {ending : Ending ω}
    {fault : Option Fault} :
    c.crew = [] →
    Acts p l ⟨p, c, w, .reaping ending fault⟩
      l ⟨p, c.note (fault.map .warning).toList, w, .dropping ending⟩
  | drops {l : Ledger} {c : Custody} {β : Type} {w : Wired α β} {ending : Ending ω}
    {record : Record} {records : List Record} :
    c.records = record :: records →
    Acts p l ⟨p, c, w, .dropping ending⟩
      (record.drop l).1 ⟨p, { c with records }.note (record.drop l).2, w, .dropping ending⟩
  | ends {l : Ledger} {c : Custody} {β : Type} {w : Wired α β} {ending : Ending ω} :
    c.records = [] →
    Acts p l ⟨p, c, w, .dropping ending⟩ l ⟨p, c, w, .finished ending⟩

/-- The caller does nothing but what the rules say. -/
theorem Acts.of_callerStep {p : Plan α ω} {c : Custody} {l l' : Ledger} {β : Type} {w : Wired α β}
    {phase : Phase α ω β} {v : Invocation α ω} (h : callerStep p c l w phase = some (l', v)) :
    Acts p l ⟨p, c, w, phase⟩ l' v := by
  cases phase with
  | opening => cases h; exact .opens
  | wiring rest =>
    cases rest with
    | nil => cases h; exact .wires
    | cons s rest => cases h; exact .adds
  | spawning s out rest =>
    simp only [callerStep] at h
    split at h <;> rename_i ho <;> cases h
    · exact .starts ho
    · exact .fails ho nofun
    · exact .fails ho nofun
  | sending =>
    simp only [callerStep] at h
    split at h <;> rename_i hsend <;> cases h
    · exact .sends hsend
    · exact .sendsNot hsend
  | closingFirst => cases h; exact .closesFirst
  | receiving =>
    simp only [callerStep] at h
    split at h <;> rename_i hreceive <;> cases h
    · exact .receives hreceive
    · exact .receivesNot hreceive
  | closingLast got => cases h; exact .closesLast
  | joining got fault =>
    simp only [callerStep] at h
    split at h <;> rename_i hcrew
    · split at h <;> rename_i hexit <;> cases h
      exact .joins hcrew hexit
    · split at h <;> cases h
      · exact .reports hcrew
      · exact .concludes hcrew
      · exact .misses hcrew
  | disposing value done =>
    simp only [callerStep] at h
    split at h <;> rename_i hrecords
    · cases h; exact .returns hrecords
    · split at h <;> rename_i hdispose <;> cases h
      · exact .disposes hrecords hdispose
      · exact .disposesNot hrecords hdispose
  | forsaking ending => cases h; exact .forsakes
  | abandoning ending => cases h; exact .abandons
  | reaping ending fault =>
    simp only [callerStep] at h
    split at h <;> rename_i hcrew
    · split at h <;> rename_i hexit <;> cases h
      exact .reaps hcrew hexit
    · cases h; exact .reaped hcrew
  | dropping ending =>
    simp only [callerStep] at h
    split at h <;> rename_i hrecords <;> cases h
    · exact .ends hrecords
    · exact .drops hrecords
  | finished ending => cases h

/-- A step is one of the caller's, or one of a thread, which concerns nothing but the lanes. -/
theorem step_cases {move : Move} {l l' : Ledger} {v v' : Invocation α ω}
    (h : v.step move l = some (l', v')) :
    (move = .caller ∧ Acts v.plan l v l' v') ∨
      ∃ i w, move = .thread i ∧ v.wired.step i = some w ∧ l' = l ∧
        v' = ⟨v.plan, v.custody, w, v.phase⟩ := by
  cases move with
  | caller => exact .inl ⟨rfl, .of_callerStep h⟩
  | thread i =>
    obtain ⟨w, hw, he⟩ := Option.map_eq_some_iff.mp h
    cases he
    exact .inr ⟨i, w, rfl, hw, rfl, rfl⟩

end Invocation

end Relay

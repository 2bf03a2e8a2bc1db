import Mathlib.Data.List.Basic
import Mathlib.Data.List.Induction
import Relay.Proofs.Event
import Relay.Proofs.Invocation.Accounts
import Relay.Proofs.Invocation.Liveness

/-!
# The journal of a run

`Plan.journal` is what the caller of a run logs from its start to its end, as the plan and the
ledger decide it: the channels and threads in the order in which they are set up, then a join for
each thread, then a release for each channel, and a last entry if a value is returned.

* `Logged.caller`, `Reaches.logged`: what was logged and what is still owed make up the journal, at
  every step of every run;
* `Reaches.keeps_journal`: so every run logs its journal, whatever the schedule.
-/

namespace Relay

variable {α β ω : Type}

/-- What is logged when a record is dropped that was not disposed. -/
def Record.release (r : Record) (l : Ledger) : Event :=
  if l.liveThreads = 0 then .disposed r.id
  else .warning (.disposeWhileInUse r.id l.liveThreads)

theorem Record.drop_snd {r : Record} {l : Ledger} (hr : r.disposed = false) :
    (r.drop l).2 = [r.release l] := by
  rw [drop, if_neg (Bool.eq_false_iff.mp hr), release]
  by_cases hl : l.liveThreads = 0
  · rw [dispose_of_quiet hr hl, if_pos hl]
  · rw [dispose_of_live hr hl, if_neg hl]

theorem Record.release_congr (r : Record) {l l' : Ledger} (h : l.liveThreads = l'.liveThreads) :
    r.release l = r.release l' := by
  rw [release, release, h]

namespace Plan

variable {p : Plan α ω} {l₀ : Ledger}

/-- What is logged until the stages of some names, the first ones of the chain, are set up: a
channel to feed them, then for each of them its output channel and its thread. -/
def setup (p : Plan α ω) (l₀ : Ledger) (names : List String) : List Event :=
  (p.fresh l₀ 0).creation ::
    (names.mapIdx fun i name => [(p.fresh l₀ (i + 1)).creation, .spawned name]).flatten

/-- What is logged next: that all stages are wired, or the output channel of the stage whose thread
cannot be started. -/
def turn (p : Plan α ω) (l₀ : Ledger) : List Event :=
  match p.setback? with
  | none => [.wired p.pipeline.length (p.pipeline.length + 1)]
  | some _ => [(p.fresh l₀ (p.started + 1)).creation]

/-- The last entry, which only a run has that returns a value. -/
def finale (p : Plan α ω) (l₀ : Ledger) : List Event :=
  match p.verdict l₀ with
  | .returned _ => [.finished (l₀.after p.channels p.started)]
  | _ => []

/-- The stages whose threads are started. -/
def crewNames (p : Plan α ω) : List String :=
  p.pipeline.stageNames.take p.started

/-- What a run that begins with ledger `l₀` logs. -/
def journal (p : Plan α ω) (l₀ : Ledger) : List Event :=
  p.setup l₀ p.crewNames ++ p.turn l₀ ++ p.crewNames.map .joined ++
    (p.filed l₀ 0 p.channels).map (·.release l₀) ++ p.finale l₀

theorem setup_snoc (names : List String) (name : String) :
    p.setup l₀ (names ++ [name]) = p.setup l₀ names ++
      [(p.fresh l₀ (names.length + 1)).creation] ++ [.spawned name] := by
  simp only [setup, List.mapIdx_append, List.mapIdx_cons, List.mapIdx_nil, List.flatten_append,
    List.flatten_cons, List.flatten_nil, List.cons_append, List.append_assoc, List.nil_append,
    List.append_nil, Nat.zero_add]

theorem finale_of_failed {e : RunError} (h : p.verdict l₀ = .failed e) : p.finale l₀ = [] := by
  rw [finale, h]

theorem finale_of_setback {stage : String} {o : SpawnOutcome}
    (h : p.setback? = some (stage, o)) : p.finale l₀ = [] := by
  rw [finale, verdict_of_setback h]
  cases o <;> rfl

end Plan

/-! ## The invariant -/

/-- What the caller has still to log of what is in custody. -/
def Custody.owed (c : Custody) (l₀ : Ledger) : List Event :=
  c.crew.map (fun h => .joined h.stage) ++ c.records.map (·.release l₀)

/-- What the caller logs at the very end. -/
def Phase.finale (p : Plan α ω) (l₀ : Ledger) (phase : Phase α ω β) : List Event :=
  match phase.settled? with
  | some _ => []
  | none => p.finale l₀

/-- What the caller has logged: the setup as far as it goes, and after it all of the journal but
for what is still owed. -/
def Plan.Logged (p : Plan α ω) (l₀ : Ledger) (c : Custody) (w : Wired α β) :
    Phase α ω β → Prop
  | .opening => c.log = []
  | .wiring _ => c.log = p.setup l₀ w.chain.names
  | .spawning _ _ _ => c.log = p.setup l₀ w.chain.names ++ [(p.fresh l₀ (w.size + 1)).creation]
  | phase => c.log ++ c.owed l₀ ++ phase.finale p l₀ = p.journal l₀

theorem Wired.map_stage_handles (w : Wired α β) : w.handles.map (·.stage) = w.chain.names := by
  induction w with
  | entry => rfl
  | lane w l ih => rw [handles, List.map_append, ih, chain, Chain.names_snoc]; rfl

theorem Wired.length_handles (w : Wired α β) : w.handles.length = w.size := by
  rw [← List.length_map, w.map_stage_handles, w.length_names_chain]

/-- Nobody panics before the caller has sent the input. -/
theorem Flow.firstPanic_of_unsent {t : String → String} {x : α} {feed : Feed} {w : Wired α β}
    {s : Supply β} {h : List Deed} (hf : Flow t x feed w s h) (hfeed : feed ≠ .sent) :
    w.firstPanic w.handles = none := by
  induction hf with
  | entry => rfl
  | @lane _ _ w l r s h own hw hl ih =>
    have hlast : (Wired.lane w l).exit? w.size = l.worker.exit? := if_pos rfl
    rw [Wired.handles, Wired.firstPanic_append,
      Wired.firstPanic_congr (w := w) fun hd hm => Wired.exit?_lane_of_mem hm, ih,
      Wired.firstPanic_singleton, hlast, Option.none_or, if_neg]
    intro hexit
    rcases hl.stand.of_exited (by rw [hexit]; rfl) with ⟨a, -, rfl, -⟩ | ⟨a, rfl, -⟩ | ⟨-, hend⟩
    · exact hfeed (hw.sent_of_value rfl)
    · exact hfeed (hw.sent_of_value rfl)
    · rw [hend] at hexit; cases hexit

namespace Plan

variable {p : Plan α ω} {c c' : Custody} {l₀ l l' : Ledger} {w : Wired α β} {phase : Phase α ω β}

/-! ## What is owed -/

theorem owed_join {hd : Handle} {crew : List Handle} (h : c.crew = hd :: crew) :
    c.owed l₀ = .joined hd.stage :: { c with crew }.owed l₀ := by
  rw [Custody.owed, h]; rfl

theorem owed_release {record : Record} {records : List Record} (hcrew : c.crew = [])
    (h : c.records = record :: records) :
    c.owed l₀ = record.release l₀ :: { c with records }.owed l₀ := by
  rw [Custody.owed, Custody.owed, hcrew, h]; rfl

theorem length_filed (n m : Nat) : (p.filed l₀ n m).length = m := by
  rw [filed, List.length_map, List.length_range']

theorem owed_nil (hcrew : c.crew = []) (h : c.records = []) : c.owed l₀ = [] := by
  rw [Custody.owed, hcrew, h]; rfl

/-- What the caller owes when it has set up everything. -/
theorem Launched.owed {m : Nat} (h : p.Launched c w) (hrecords : c.records = p.filed l₀ 0 m) :
    c.owed l₀ = w.chain.names.map .joined ++ (p.filed l₀ 0 m).map (·.release l₀) := by
  rw [Custody.owed, h.crew, hrecords, ← w.map_stage_handles, List.map_map]; rfl

/-- Before the teardown all records are in custody. -/
theorem Accounts.records_eq (h : p.Accounts l₀ l c w phase)
    (h0 : ∀ n, phase.Released p l₀ n → n = 0) :
    c.records = p.filed l₀ 0 (phase.created p w.size) := by
  obtain ⟨n, m, hnm, hrecords, -, hn⟩ := h.records
  obtain rfl := h0 n hn
  rw [hrecords, ← hnm, Nat.zero_add]

theorem acquire_log (h : p.Accounts l₀ l c w phase) :
    (Invocation.acquire p c l).1.log =
      c.log ++ [(p.fresh l₀ (phase.created p w.size)).creation] := by
  show c.log ++ [Event.created (l.channelsCreated + 1) _] = _
  rw [h.created]; rfl

/-- The stages that are set up when the caller has come to its turn. -/
theorem crewNames_eq {γ : Type} {w : Wired α γ} {d : Chain γ ω}
    (hc : w.chain.append d = p.pipeline.chain) (hstarted : p.started = w.size) :
    p.crewNames = w.chain.names := by
  rw [crewNames, Pipeline.stageNames, ← hc, Chain.names_append, hstarted, ← w.length_names_chain,
    List.take_left]

/-! ## Steps -/

/-- The caller logs what comes first of what it owes. -/
theorem pay {log rest end_ : List Event} {e : Event} (h : log ++ e :: rest ++ end_ = p.journal l₀) :
    log ++ [e] ++ rest ++ end_ = p.journal l₀ := by
  rw [← h, List.append_cons log e rest]

/-- Steps of threads log nothing here. -/
theorem Logged.thread {w' : Wired α β} (hlog : p.Logged l₀ c w phase) (hchain : w'.chain = w.chain)
    (hsize : w'.size = w.size) : p.Logged l₀ c w' phase := by
  cases phase with
  | wiring => exact hlog.trans (by rw [hchain])
  | spawning => exact hlog.trans (by rw [hchain, hsize])
  | _ => exact hlog

/-- **Every step of the caller keeps the journal.** -/
theorem Logged.caller {feed : Feed} {s : Supply β} {h deeds : List Deed} {v : Invocation α ω}
    (hlog : p.Logged l₀ c w phase) (hacc : p.Accounts l₀ l c w phase)
    (hf : Flow p.tuning.threadName p.input feed w s h) (hat : p.At c w phase feed s h deeds)
    (hact : Invocation.Acts p l ⟨p, c, w, phase⟩ l' v)
    (hend : ∀ e, v.ending? = some e → l' = l₀.after p.channels p.started) :
    p.Logged l₀ v.custody v.wired v.phase := by
  cases hact with
  | opens =>
    cases hat with
    | opening hc hr =>
      have hlog : c.log = [] := hlog
      exact (acquire_log hacc).trans (by rw [hlog]; rfl)
  | wires =>
    cases hat with
    | wiring hl hc =>
      have hlog : c.log = p.setup l₀ w.chain.names := hlog
      have hcomplete := hl.complete (by rw [← hc, Chain.append_nil])
      have hrecords : c.records = p.filed l₀ 0 (w.size + 1) := hacc.records_eq fun _ h => h
      have hturn : p.turn l₀ = [.wired c.crew.length c.records.length] := by
        rw [turn, hcomplete.setback, Pipeline.length, ← hcomplete.chain, w.length_chain, hl.crew,
          w.length_handles, hrecords, length_filed]
      show c.log ++ [.wired c.crew.length c.records.length] ++ c.owed l₀ ++ p.finale l₀ = _
      rw [journal, crewNames_eq hc hcomplete.started, hturn, hcomplete.channels, hlog,
        hl.owed hrecords, ← List.append_assoc (_ ++ _)]
  | adds => exact (acquire_log hacc).trans (congrArg (· ++ _) hlog)
  | starts ho =>
    have hlog : c.log = p.setup l₀ w.chain.names ++ [(p.fresh l₀ (w.size + 1)).creation] := hlog
    show c.log ++ [_] = p.setup l₀ (w.chain.snoc _).names
    rw [Chain.names_snoc, setup_snoc, hlog, w.length_names_chain]
  | fails ho hne =>
    cases hat with
    | spawning hl hc =>
      have hlog : c.log = p.setup l₀ w.chain.names ++ [(p.fresh l₀ (w.size + 1)).creation] := hlog
      obtain ⟨hsetback, hstarted⟩ := hl.setback hc ho hne
      have hrecords : c.records = p.filed l₀ 0 (w.size + 2) := hacc.records_eq fun _ h => h
      have hturn : p.turn l₀ = [(p.fresh l₀ (w.size + 1)).creation] := by
        rw [turn, hsetback, hstarted]
      show c.log ++ c.owed l₀ ++ [] = _
      rw [journal, crewNames_eq hc hstarted, hturn, channels_of_setback hsetback, hstarted, hlog,
        hl.owed hrecords, finale_of_setback hsetback, ← List.append_assoc (_ ++ _)]
  | sendsNot hsend =>
    obtain ⟨first, hfirst⟩ := hat.sends hf
    rw [hfirst] at hsend
    cases hsend
  | sends | closesFirst | receives | receivesNot | closesLast | concludes | abandons => exact hlog
  | joins hcrew | reaps hcrew =>
    have hlog : c.log ++ c.owed l₀ ++ _ = p.journal l₀ := hlog
    rw [owed_join hcrew] at hlog
    exact pay hlog
  | reports hcrew =>
    cases hat with
    | joining hj hc hy =>
      have hfault := hc.fault hf hj hcrew
      split at hfault <;> rename_i heval <;> cases hfault
      have hlog : c.log ++ c.owed l₀ ++ p.finale l₀ = p.journal l₀ := hlog
      rw [finale_of_failed (verdict_of_error hc.setback heval)] at hlog
      exact hlog
  | misses hcrew =>
    cases hat with
    | joining hj hc hy =>
      -- Nothing came because a stage panicked, and that its thread tells when it is joined.
      cases hy with
      | nothing =>
        obtain ⟨stage, heval⟩ := hc.eval_of_dry hf
        have hfault := hc.fault hf hj hcrew
        rw [heval] at hfault
        cases hfault
  | disposes hrecords hdispose =>
    cases hat with
    | disposing hcrew hex hc heval =>
      have hlog : c.log ++ c.owed l₀ ++ p.finale l₀ = p.journal l₀ := hlog
      obtain ⟨n, rfl, -⟩ := hacc.next hrecords
      rw [owed_release hcrew hrecords, ← Record.release_congr _ (hacc.live hcrew)] at hlog
      by_cases hlive : l.liveThreads = 0
      · rw [Record.dispose_of_quiet rfl hlive] at hdispose
        cases hdispose
        rw [Record.release, if_pos hlive] at hlog
        exact pay hlog
      · rw [Record.dispose_of_live rfl hlive] at hdispose
        cases hdispose
  | @disposesNot _ _ _ done _ _ _ hrecords hdispose =>
    cases hat with
    | disposing hcrew hex hc heval =>
      obtain ⟨n, rfl, rfl, hquiet⟩ := hacc.next hrecords
      by_cases hlive : l₀.liveThreads = 0
      · rw [Record.dispose_of_quiet rfl ((hacc.live hcrew).trans hlive)] at hdispose
        cases hdispose
      · -- Disposing stops at the first record if it stops at all.
        have hdone : done = [] :=
          List.length_eq_zero_iff.mp (Decidable.by_contra fun h => hlive (hquiet h))
        subst hdone
        have hlog : c.log ++ c.owed l₀ ++ p.finale l₀ = p.journal l₀ := hlog
        rw [finale_of_failed ((verdict_of_ok hc.setback heval).trans (if_neg hlive))] at hlog
        show c.log ++ ({ c with records := _ } : Custody).owed l₀ ++ [] = _
        rw [List.nil_append, ← hrecords]
        exact hlog
  | returns hrecords =>
    cases hat with
    | disposing hcrew hex hc heval =>
      have hlog : c.log ++ c.owed l₀ ++ p.finale l₀ = p.journal l₀ := hlog
      have hverdict :=
        (hacc.caller hf (.disposing hcrew hex hc heval) (.returns hrecords)).ending _ rfl
      rw [owed_nil hcrew hrecords, List.append_nil, finale, ← hverdict, ← hend _ rfl] at hlog
      show c.log ++ [.finished l.snapshot] ++ c.owed l₀ ++ [] = _
      rw [owed_nil hcrew hrecords, List.append_nil, List.append_nil]
      exact hlog
  | forsakes => cases hat
  | reaped hcrew =>
    cases hat with
    | reaping hj hg =>
      have hlog : c.log ++ c.owed l₀ ++ [] = p.journal l₀ := hlog
      obtain rfl := (hj.all hcrew).2.trans (hf.firstPanic_of_unsent (by decide))
      show c.log ++ [] ++ c.owed l₀ ++ [] = _
      rw [List.append_nil c.log]
      exact hlog
  | drops hrecords =>
    cases hat with
    | dropping ht =>
      have hlog : c.log ++ c.owed l₀ ++ [] = p.journal l₀ := hlog
      obtain ⟨n, rfl, -⟩ := hacc.next hrecords
      rw [owed_release ht.crew hrecords, ← Record.release_congr _ (hacc.live ht.crew)] at hlog
      show c.log ++ (Record.drop _ _).2 ++ _ ++ [] = _
      rw [Record.drop_snd rfl]
      exact pay hlog
  | ends hrecords => exact hlog

/-- **Every run keeps its journal.** -/
theorem Reaches.logged {schedule : List Move} {deeds : List Deed} {v : Invocation α ω}
    (h : p.Reaches l₀ schedule deeds l v) : p.Logged l₀ v.custody v.wired v.phase := by
  induction h with
  | start => rfl
  | step move hr hstep ih =>
    obtain ⟨rfl, feed, s, own, hf, hat⟩ := hr.sound
    have hr' := hr.step move hstep
    rcases Invocation.step_cases hstep with ⟨rfl, hact⟩ | ⟨i, w, rfl, hw, rfl, rfl⟩
    · exact ih.caller hr.accounts hf hat hact fun e he => (hr'.ended he).1
    · exact ih.thread (Wired.chain_step hw) (Wired.size_step hw)

/-- Nothing is owed in the end. -/
theorem Logged.of_ended {feed : Feed} {s : Supply β} {h deeds : List Deed} {e : Ending ω}
    (hlog : p.Logged l₀ c w phase) (hacc : p.Accounts l₀ l c w phase)
    (hat : p.At c w phase feed s h deeds)
    (hend : (⟨p, c, w, phase⟩ : Invocation α ω).ending? = some e) : c.log = p.journal l₀ := by
  cases hat with
  | finished ht =>
    have hlog : c.log ++ c.owed l₀ ++ [] = p.journal l₀ := hlog
    obtain ⟨n, m, hnm, hrecords, -, hn⟩ := hacc.records
    obtain rfl : n = p.channels := hn
    obtain rfl : m = 0 := Nat.add_left_cancel (hnm.trans (Nat.add_zero p.channels).symm)
    rw [owed_nil ht.crew hrecords, List.append_nil, List.append_nil] at hlog
    exact hlog
  | _ => cases hend

/-! ## Logs only grow -/

theorem log_prefix_of_step {move : Move} {v v' : Invocation α ω}
    (h : v.step move l = some (l', v')) : v.custody.log <+: v'.custody.log := by
  obtain ⟨plan, c, w, phase⟩ := v
  rcases Invocation.step_cases h with ⟨-, hact⟩ | ⟨i, w, -, -, -, rfl⟩
  · cases hact <;> first | exact List.prefix_refl _ | exact List.prefix_append _ _
  · exact List.prefix_refl _

theorem log_prefix_drive (fuel : Nat) (l : Ledger) (v : Invocation α ω) :
    v.custody.log <+: (v.drive fuel l).2.custody.log := by
  induction fuel generalizing l v with
  | zero => exact List.prefix_refl _
  | succ fuel ih =>
    rw [Invocation.drive]
    cases ha : v.advance l with
    | none => exact List.prefix_refl _
    | some x =>
      obtain ⟨move, hstep⟩ := Invocation.step_of_advance ha
      exact (log_prefix_of_step hstep).trans (ih x.1 x.2)

/-! ## What a journal is like -/

/-- Everything that was set up is released: each thread is joined and each channel is released once,
in the order in which they were set up, and no thread is joined after a channel was released. -/
structure Orderly (log : List Event) : Prop where
  joined : log.filterMap Event.joined? = log.filterMap Event.spawned?
  released : log.filterMap Event.released? = log.filterMap Event.created?
  ranked : log.Pairwise fun a b => a.released?.isSome → b.joined? = none

theorem length_crewNames (p : Plan α ω) : p.crewNames.length = p.started := by
  have hle := (List.takeWhile_prefix (·.2 = .started)
    (l := p.launches p.pipeline.stageNames)).length_le
  rw [launches, List.length_mapIdx] at hle
  rw [crewNames, List.length_take]
  exact Nat.min_eq_left hle

theorem mem_setup {names : List String} {e : Event} (h : e ∈ p.setup l₀ names) :
    (∃ i, e = (p.fresh l₀ i).creation) ∨ ∃ name, e = .spawned name := by
  induction names using List.reverseRecOn with
  | nil => exact .inl ⟨0, List.mem_singleton.mp h⟩
  | append_singleton names name ih =>
    rw [setup_snoc, List.append_assoc, List.mem_append] at h
    rcases h with h | h
    · exact ih h
    · rcases List.mem_cons.mp h with rfl | h
      · exact .inl ⟨_, rfl⟩
      · exact .inr ⟨name, List.mem_singleton.mp h⟩

theorem mem_turn {e : Event} (h : e ∈ p.turn l₀) :
    (∃ n m, e = .wired n m) ∨ ∃ i, e = (p.fresh l₀ i).creation := by
  rw [turn] at h
  split at h
  · exact .inl ⟨_, _, List.mem_singleton.mp h⟩
  · exact .inr ⟨_, List.mem_singleton.mp h⟩

theorem mem_finale {e : Event} (h : e ∈ p.finale l₀) :
    e = .finished (l₀.after p.channels p.started) ∧ ∃ value, p.verdict l₀ = .returned value := by
  rw [finale] at h
  split at h
  · rename_i value hv; exact ⟨List.mem_singleton.mp h, value, hv⟩
  · cases h

theorem spawned_setup (names : List String) :
    (p.setup l₀ names).filterMap Event.spawned? = names := by
  induction names using List.reverseRecOn with
  | nil => rfl
  | append_singleton names name ih =>
    rw [setup_snoc, List.filterMap_append, List.filterMap_append, ih]
    exact congrArg (· ++ [name]) (List.append_nil names)

theorem created_setup (names : List String) :
    (p.setup l₀ names).filterMap Event.created? =
      (p.filed l₀ 0 (names.length + 1)).map Record.id := by
  induction names using List.reverseRecOn with
  | nil => rfl
  | append_singleton names name ih =>
    rw [setup_snoc, List.filterMap_append, List.filterMap_append, ih, List.length_append,
      List.length_singleton, filed_snoc 0 (names.length + 1), List.map_append, Nat.zero_add]
    exact List.append_nil _

/-! ### Its views -/

section Views

variable {τ : Type} {f : Event → Option τ}

theorem filterMap_setup {names : List String} (hcreated : ∀ n m, f (.created n m) = none)
    (hspawned : ∀ name, f (.spawned name) = none) : (p.setup l₀ names).filterMap f = [] := by
  rw [List.filterMap_eq_nil_iff]
  intro e he
  rcases mem_setup he with ⟨i, rfl⟩ | ⟨name, rfl⟩
  · exact hcreated _ _
  · exact hspawned name

theorem filterMap_turn (hcreated : ∀ n m, f (.created n m) = none)
    (hwired : ∀ n m, f (.wired n m) = none) : (p.turn l₀).filterMap f = [] := by
  rw [List.filterMap_eq_nil_iff]
  intro e he
  rcases mem_turn he with ⟨n, m, rfl⟩ | ⟨i, rfl⟩
  · exact hwired n m
  · exact hcreated _ _

theorem filterMap_joins {names : List String} (h : ∀ name, f (.joined name) = none) :
    (names.map Event.joined).filterMap f = [] := by
  rw [List.filterMap_map, List.filterMap_eq_nil_iff]
  exact fun name _ => h name

theorem filterMap_releases {records : List Record} (hdisposed : ∀ n, f (.disposed n) = none)
    (hlost : ∀ fault, f (.warning fault) = none) :
    (records.map (·.release l₀)).filterMap f = [] := by
  rw [List.filterMap_map, List.filterMap_eq_nil_iff]
  intro r _
  show f (r.release l₀) = none
  rw [Record.release]
  split
  · exact hdisposed r.id
  · exact hlost _

theorem filterMap_finale (h : ∀ l, f (.finished l) = none) : (p.finale l₀).filterMap f = [] := by
  rw [List.filterMap_eq_nil_iff]
  intro e he
  rw [(mem_finale he).1]
  exact h _

end Views

/-- The channels that are created, in order. -/
theorem created_journal (p : Plan α ω) (l₀ : Ledger) :
    (p.journal l₀).filterMap Event.created? = (p.filed l₀ 0 p.channels).map Record.id := by
  have hsetup : (p.setup l₀ p.crewNames).filterMap Event.created? ++
      (p.turn l₀).filterMap Event.created? = (p.filed l₀ 0 p.channels).map Record.id := by
    rw [created_setup, length_crewNames, turn]
    cases hsetback : p.setback? with
    | none => rw [channels_of_launched hsetback]; exact List.append_nil _
    | some x =>
      rw [channels_of_setback hsetback, filed_snoc 0 (p.started + 1), List.map_append, Nat.zero_add]
      rfl
  simp only [journal, List.filterMap_append]
  rw [hsetup, filterMap_joins fun _ => rfl, filterMap_releases (fun _ => rfl) fun _ => rfl,
    filterMap_finale fun _ => rfl]
  simp only [List.append_nil]

/-- What only releases tell, a journal tells in its releases. -/
theorem filterMap_journal {τ : Type} {f : Event → Option τ}
    (hcreated : ∀ n m, f (.created n m) = none) (hspawned : ∀ name, f (.spawned name) = none)
    (hwired : ∀ n m, f (.wired n m) = none) (hjoined : ∀ name, f (.joined name) = none)
    (hfinished : ∀ l, f (.finished l) = none) :
    (p.journal l₀).filterMap f = (p.filed l₀ 0 p.channels).filterMap fun r => f (r.release l₀) := by
  simp only [journal, List.filterMap_append]
  rw [filterMap_setup hcreated hspawned, filterMap_turn hcreated hwired, filterMap_joins hjoined,
    filterMap_finale hfinished, List.filterMap_map]
  simp only [List.append_nil, List.nil_append]
  rfl

/-- The channels that are released, in order. -/
theorem released_journal (p : Plan α ω) (l₀ : Ledger) :
    (p.journal l₀).filterMap Event.released? = (p.filed l₀ 0 p.channels).map Record.id := by
  rw [filterMap_journal (fun _ _ => rfl) (fun _ => rfl) (fun _ _ => rfl) (fun _ => rfl)
      fun _ => rfl,
    List.filterMap_eq_map_iff_forall_eq_some]
  intro r _
  rw [Record.release]
  split <;> rfl

/-- While no thread of others is live, all channels are disposed. -/
theorem disposed_journal_of_quiet (p : Plan α ω) (hquiet : l₀.liveThreads = 0) :
    (p.journal l₀).filterMap Event.disposed? = (p.filed l₀ 0 p.channels).map Record.id ∧
      (p.journal l₀).filterMap Event.lost? = [] := by
  rw [filterMap_journal (fun _ _ => rfl) (fun _ => rfl) (fun _ _ => rfl) (fun _ => rfl)
      fun _ => rfl,
    filterMap_journal (fun _ _ => rfl) (fun _ => rfl) (fun _ _ => rfl) (fun _ => rfl)
      fun _ => rfl,
    List.filterMap_eq_map_iff_forall_eq_some, List.filterMap_eq_nil_iff]
  refine ⟨fun r _ => ?_, fun r _ => ?_⟩ <;> rw [Record.release, if_pos hquiet] <;> rfl

/-- While threads of others are live, all channels are lost. -/
theorem lost_journal_of_live (p : Plan α ω) (hlive : l₀.liveThreads ≠ 0) :
    (p.journal l₀).filterMap Event.disposed? = [] ∧
      (p.journal l₀).filterMap Event.lost? = (p.filed l₀ 0 p.channels).map Record.id := by
  rw [filterMap_journal (fun _ _ => rfl) (fun _ => rfl) (fun _ _ => rfl) (fun _ => rfl)
      fun _ => rfl,
    filterMap_journal (fun _ _ => rfl) (fun _ => rfl) (fun _ _ => rfl) (fun _ => rfl)
      fun _ => rfl,
    List.filterMap_eq_map_iff_forall_eq_some, List.filterMap_eq_nil_iff]
  refine ⟨fun r _ => ?_, fun r _ => ?_⟩ <;> rw [Record.release, if_neg hlive] <;> rfl

/-- The stages whose threads are started, in order. -/
theorem spawned_journal (p : Plan α ω) (l₀ : Ledger) :
    (p.journal l₀).filterMap Event.spawned? = p.crewNames := by
  simp only [journal, List.filterMap_append]
  rw [spawned_setup, filterMap_turn (fun _ _ => rfl) fun _ _ => rfl, filterMap_joins fun _ => rfl,
    filterMap_releases (fun _ => rfl) fun _ => rfl, filterMap_finale fun _ => rfl]
  simp only [List.append_nil]

/-- The stages whose threads are joined, in order. -/
theorem joined_journal (p : Plan α ω) (l₀ : Ledger) :
    (p.journal l₀).filterMap Event.joined? = p.crewNames := by
  have hjoin : (p.crewNames.map Event.joined).filterMap Event.joined? = p.crewNames := by
    rw [List.filterMap_map]
    exact List.filterMap_some
  simp only [journal, List.filterMap_append]
  rw [filterMap_setup (fun _ _ => rfl) fun _ => rfl, filterMap_turn (fun _ _ => rfl) fun _ _ => rfl,
    hjoin, filterMap_releases (fun _ => rfl) fun _ => rfl, filterMap_finale fun _ => rfl]
  simp only [List.append_nil, List.nil_append]

/-- No thread is joined after a channel was released. -/
theorem journal_ranked (p : Plan α ω) (l₀ : Ledger) :
    (p.journal l₀).Pairwise fun a b => a.released?.isSome → b.joined? = none := by
  have hbefore : (p.setup l₀ p.crewNames ++ p.turn l₀ ++
      p.crewNames.map Event.joined).filterMap Event.released? = [] := by
    simp only [List.filterMap_append]
    rw [filterMap_setup (fun _ _ => rfl) fun _ => rfl,
      filterMap_turn (fun _ _ => rfl) fun _ _ => rfl, filterMap_joins fun _ => rfl]
    rfl
  have hafter : ((p.filed l₀ 0 p.channels).map (·.release l₀) ++ p.finale l₀).filterMap
      Event.joined? = [] := by
    rw [List.filterMap_append, filterMap_releases (fun _ => rfl) fun _ => rfl,
      filterMap_finale fun _ => rfl]
    rfl
  rw [List.filterMap_eq_nil_iff] at hbefore hafter
  rw [journal, List.append_assoc, List.pairwise_append]
  refine ⟨List.pairwise_iff_forall_sublist.mpr fun {a b} hab ha => ?_,
    List.pairwise_iff_forall_sublist.mpr fun {a b} hab _ => ?_, fun a ha b hb _ => hafter b hb⟩
  · rw [hbefore a (hab.subset List.mem_cons_self)] at ha; cases ha
  · exact hafter b (hab.subset (List.mem_cons_of_mem _ List.mem_cons_self))

theorem journal_orderly (p : Plan α ω) (l₀ : Ledger) : Orderly (p.journal l₀) :=
  ⟨(p.joined_journal l₀).trans (p.spawned_journal l₀).symm,
    (p.released_journal l₀).trans (p.created_journal l₀).symm, p.journal_ranked l₀⟩

/-- Only a value that is returned is logged at the end. -/
theorem finished_journal (p : Plan α ω) (l₀ : Ledger) :
    (p.journal l₀).filterMap Event.finished? = (p.finale l₀).filterMap Event.finished? := by
  simp only [journal, List.filterMap_append]
  rw [filterMap_setup (fun _ _ => rfl) fun _ => rfl, filterMap_turn (fun _ _ => rfl) fun _ _ => rfl,
    filterMap_joins fun _ => rfl, filterMap_releases (fun _ => rfl) fun _ => rfl]
  rfl

theorem getLast?_journal {value : ω} (h : p.verdict l₀ = .returned value) :
    (p.journal l₀).getLast? = some (.finished (l₀.after p.channels p.started)) := by
  rw [journal, finale, h]
  exact List.getLast?_concat

theorem Reaches.log_of_ended {schedule : List Move} {deeds : List Deed} {v : Invocation α ω}
    {e : Ending ω} (h : p.Reaches l₀ schedule deeds l v) (hend : v.ending? = some e) :
    v.custody.log = p.journal l₀ := by
  obtain ⟨rfl, feed, s, own, hf, hat⟩ := h.sound
  exact h.logged.of_ended h.accounts hat hend

/-- **Every run keeps its journal**, whatever the schedule: its log is the journal as far as it
goes, and the whole journal in the end. So everything that is set up is released in order, and the
last entry tells of the ledger if and only if a value is returned. -/
theorem Reaches.keeps_journal {schedule : List Move} {deeds : List Deed} {v : Invocation α ω}
    (h : p.Reaches l₀ schedule deeds l v) :
    (v.custody.log <+: p.journal l₀ ∧ Orderly (p.journal l₀)) ∧
      (∀ e, v.ending? = some e → v.custody.log = p.journal l₀ ∧
        (∀ value, e = .returned value → v.custody.log.getLast? = some (.finished l)) ∧
        ∀ final, .finished final ∈ v.custody.log → final = l ∧ ∃ value, e = .returned value) ∧
      ∃ schedule' deeds' l' v', p.Reaches l₀ (schedule ++ schedule') (deeds ++ deeds') l' v' ∧
        v'.ending?.isSome ∧ v'.custody.log = p.journal l₀ := by
  obtain ⟨schedule', deeds', h'⟩ := h.drive v.stepsLeft
  obtain ⟨e', hend'⟩ := Option.isSome_iff_exists.mp (h.ended_drive (Nat.le_refl _))
  have hlog' := h'.log_of_ended hend'
  refine ⟨⟨hlog' ▸ log_prefix_drive _ l v, p.journal_orderly l₀⟩, fun e hend => ?_,
    schedule', deeds', _, _, h', by rw [hend']; rfl, hlog'⟩
  obtain ⟨rfl, rfl⟩ := h.ended hend
  rw [h.log_of_ended hend]
  refine ⟨rfl, fun value hv => getLast?_journal hv, fun final hm => ?_⟩
  have hfinal : final ∈ (p.finale l₀).filterMap Event.finished? :=
    p.finished_journal l₀ ▸ List.mem_filterMap.mpr ⟨_, hm, rfl⟩
  obtain ⟨e, he, hview⟩ := List.mem_filterMap.mp hfinal
  obtain ⟨rfl, hv⟩ := mem_finale he
  exact ⟨(Option.some.inj hview).symm, hv⟩

/-- The second thread is refused while a thread of others is live, so that no channel is
disposed. -/
theorem Reaches.keeps_journal_specimen :
    let p := specimen 3 fun i _ => if i = 2 then .refused else .started
    let l₀ : Ledger := { channelsCreated := 4, threadsSpawned := 1 }
    ∃ schedule deeds l v, p.Reaches l₀ schedule deeds l v ∧
      v.ending? = some (.failed (p.spawnFailure "check")) ∧
      v.custody.log = [.created 5 1, .created 6 1, .spawned "double", .created 7 1,
        .joined "double", .warning (.disposeWhileInUse 5 1), .warning (.disposeWhileInUse 6 1),
        .warning (.disposeWhileInUse 7 1)] := by
  intro p l₀
  have h₀ : p.Reaches l₀ [] [] l₀ p.start := .start
  obtain ⟨schedule, deeds, h⟩ := h₀.drive 29
  have hend : (p.start.drive 29 l₀).2.ending? = some (.failed (p.spawnFailure "check")) := by
    decide +kernel
  refine ⟨_, _, _, _, h, hend, (h.keeps_journal.2.1 _ hend).1.trans ?_⟩
  decide +kernel

example : ((specimen 7 fun _ _ => .started).journal .empty).map Event.line =
    ["DEBUG channel #1 created (capacity 1)", "DEBUG channel #2 created (capacity 1)",
      "DEBUG spawned stage `double`", "DEBUG channel #3 created (capacity 1)",
      "DEBUG spawned stage `check`", "DEBUG pipeline wired: 2 stage thread(s), 3 channel(s)",
      "DEBUG joined stage `double`", "DEBUG joined stage `check`", "DEBUG channel #1 disposed",
      "DEBUG channel #2 disposed", "DEBUG channel #3 disposed"] := by
  decide +kernel

end Plan

/-- A run that the driver brings to its end logs its journal. -/
theorem Pipeline.run_log (p : Pipeline α ω) (input : α) (l : Ledger)
    (host : Nat → String → SpawnOutcome) :
    (p.run input l host).log = (Plan.mk p input host).journal l := by
  have h₀ : (Plan.mk p input host).Reaches l [] [] l (Plan.mk p input host).start := .start
  obtain ⟨schedule, deeds, h⟩ := h₀.drive (Plan.mk p input host).start.stepsLeft
  obtain ⟨e, hend⟩ := Option.isSome_iff_exists.mp (h₀.ended_drive (Nat.le_refl _))
  exact h.log_of_ended hend

end Relay

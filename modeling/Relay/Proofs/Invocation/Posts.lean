import Relay.Proofs.Channel
import Relay.Proofs.Invocation.Journal

/-!
# What a run is set up with

The stages of a run have their posts: a place in the chain and a thread, which stay what they were
when the stage was wired. So does the capacity of every channel.

* `Flow.posts`: the posts are counted from one and named after the stages;
* `Reaches.furnished`: the stages that are wired are the first ones of the chain, and every channel
  has the capacity of the tuning;
* `Plan.endsIn_iff`: what a run leaves is decided by its plan and by the ledger that it begins with.
-/

namespace Relay

variable {α β γ ω : Type}

/-- The place of a stage in a run, and the name of its thread. -/
structure Post where
  index : Nat
  stage : String
  thread : String
  deriving DecidableEq, Repr

/-- The posts of stages of the given names, from the first place on. -/
def posts (threadName : String → String) (names : List String) : List Post :=
  names.mapIdx fun i name => ⟨i + 1, name, threadName name⟩

namespace Wired

/-- The posts of the stages that are wired. -/
def posts {β : Type} : Wired α β → List Post
  | .entry _ => []
  | .lane w l => w.posts ++ [⟨l.index, l.stage.name, l.thread⟩]

/-- The capacities of the channels, from the first one on. -/
def capacities {β : Type} : Wired α β → List Nat
  | .entry c => [c.capacity]
  | .lane w l => w.capacities ++ [l.out.capacity]

end Wired

/-- Each stage has the place behind those before it, and a thread of its name. -/
theorem Flow.posts {t : String → String} {x : α} {feed : Feed} {w : Wired α β} {s : Supply β}
    {h : List Deed} (hflow : Flow t x feed w s h) : w.posts = Relay.posts t w.chain.names := by
  induction hflow with
  | entry => rfl
  | @lane _ _ w l _ _ _ _ _ hfits ih =>
    rw [Wired.posts, ih, Wired.chain, Chain.names_snoc, Relay.posts, Relay.posts,
      List.mapIdx_append, w.length_names_chain, hfits.index, hfits.thread]
    simp only [List.mapIdx_cons, List.mapIdx_nil, Nat.zero_add]

/-! ## Capacities -/

/-- A step of a thread changes the capacity of neither of its channels. -/
theorem Lane.capacity_step {lane lane' : Lane β γ} {source source' : Channel β}
    (h : lane.step source = some (lane', source')) :
    lane'.out.capacity = lane.out.capacity ∧ source'.capacity = source.capacity := by
  obtain ⟨stage, index, thread, out, worker, calls, notes⟩ := lane
  cases worker with
  | waiting =>
    simp only [step, Option.map_eq_some_iff, Prod.mk.injEq] at h
    obtain ⟨⟨worker, source'', note⟩, hreceived, rfl, rfl⟩ := h
    refine ⟨rfl, ?_⟩
    rw [Worker.receive] at hreceived
    split at hreceived <;> cases hreceived
    · rename_i hdone
      rw [(Channel.of_receive_done hdone).2]
    · rfl
  | holding a =>
    cases h
    exact ⟨rfl, rfl⟩
  | sending b =>
    simp only [step, Option.map_eq_some_iff, Prod.mk.injEq] at h
    obtain ⟨⟨worker, out', note⟩, hdelivered, rfl, rfl⟩ := h
    refine ⟨?_, rfl⟩
    rw [Worker.deliver] at hdelivered
    split at hdelivered <;> cases hdelivered
    · rename_i hdone
      rw [(Channel.of_send_done hdone).2.2]
    · rfl
  | leaving panicked =>
    cases h
    exact ⟨rfl, rfl⟩
  | exited panicked => cases h

namespace Wired

theorem capacities_setLast {w : Wired α β} {c : Channel β} (h : c.capacity = w.last.capacity) :
    (w.setLast c).capacities = w.capacities := by
  cases w with
  | entry => exact congrArg (fun n => [n]) h
  | lane w l => exact congrArg (fun n => w.capacities ++ [n]) h

theorem capacities_mapFirst {w : Wired α β} {f : Channel α → Channel α}
    (h : (f w.first).capacity = w.first.capacity) : (w.mapFirst f).capacities = w.capacities := by
  induction w with
  | entry => exact congrArg (fun n => [n]) h
  | lane w l ih => exact congrArg (· ++ [l.out.capacity]) (ih h)

theorem capacities_step {i : Nat} {w w' : Wired α β} (h : w.step i = some w') :
    w'.capacities = w.capacities := by
  induction w with
  | entry => cases h
  | lane w l ih =>
    obtain ⟨l', c, -, hmoved, rfl⟩ | ⟨w'', -, hmoved, rfl⟩ := step_lane h
    · obtain ⟨hout, hsource⟩ := Lane.capacity_step hmoved
      rw [capacities, capacities, capacities_setLast hsource, hout]
    · rw [capacities, capacities, ih hmoved]

end Wired

/-! ## What is wired -/

/-- What is wired are the first stages of the pipeline, with channels as its tuning has them. -/
structure Plan.Furnished (p : Plan α ω) (w : Wired α β) : Prop where
  chain : ∃ rest, w.chain.append rest = p.pipeline.chain
  capacities : w.capacities = List.replicate (w.size + 1) p.tuning.capacity.val

namespace Plan

variable {p : Plan α ω} {w : Wired α β}

theorem Furnished.mapFirst {f : Channel α → Channel α} (h : p.Furnished w)
    (hcapacity : (f w.first).capacity = w.first.capacity) : p.Furnished (w.mapFirst f) where
  chain := by rw [Wired.chain_mapFirst]; exact h.chain
  capacities := by
    rw [Wired.capacities_mapFirst hcapacity, Wired.size_mapFirst]
    exact h.capacities

theorem Furnished.setLast {c : Channel β} (h : p.Furnished w)
    (hcapacity : c.capacity = w.last.capacity) : p.Furnished (w.setLast c) where
  chain := by rw [Wired.chain_setLast]; exact h.chain
  capacities := by
    rw [Wired.capacities_setLast hcapacity, Wired.size_setLast]
    exact h.capacities

theorem Furnished.thread {i : Nat} {w' : Wired α β} (h : p.Furnished w)
    (hmoved : w.step i = some w') : p.Furnished w' where
  chain := by rw [Wired.chain_step hmoved]; exact h.chain
  capacities := by
    rw [Wired.capacities_step hmoved, Wired.size_step hmoved]
    exact h.capacities

theorem Furnished.caller {c : Custody} {phase : Phase α ω β} {feed : Feed} {s : Supply β}
    {own deeds : List Deed} {l l' : Ledger} {v : Invocation α ω} (h : p.Furnished w)
    (hstands : p.At c w phase feed s own deeds)
    (hacts : Invocation.Acts p l ⟨p, c, w, phase⟩ l' v) : p.Furnished v.wired := by
  cases hacts with
  | starts =>
    cases hstands with
    | spawning _ hnext =>
      refine ⟨⟨_, (Chain.snoc_append _ _ _).trans hnext⟩, ?_⟩
      rw [Wired.capacities, h.capacities, Wired.size, List.replicate_succ' (n := _ + 1)]
      rfl
  | sends hsent => exact h.mapFirst (by rw [(Channel.of_send_done hsent).2.2])
  | receives hgot => exact h.setLast (by rw [(Channel.of_receive_done hgot).2])
  | closesFirst | abandons => exact h.mapFirst rfl
  | fails | closesLast | forsakes => exact h.setLast rfl
  | _ => exact h

variable {l₀ l : Ledger} {schedule : List Move} {deeds : List Deed} {v : Invocation α ω}
  {e : Ending ω}

/-- **Every run is furnished as its plan has it**, at any time. -/
theorem Reaches.furnished (h : p.Reaches l₀ schedule deeds l v) : p.Furnished v.wired := by
  induction h with
  | start => exact ⟨⟨_, rfl⟩, rfl⟩
  | step move hbefore hstep ih =>
    obtain ⟨rfl, feed, s, own, -, hstands⟩ := hbefore.sound
    rcases Invocation.step_cases hstep with ⟨-, hacts⟩ | ⟨i, w, -, hmoved, -, rfl⟩
    · exact ih.caller hstands hacts
    · exact ih.thread hmoved

/-- The stages of a run have the first posts of its pipeline. -/
theorem Reaches.posts (h : p.Reaches l₀ schedule deeds l v) :
    v.wired.posts =
      (Relay.posts p.tuning.threadName p.pipeline.stageNames).take v.wired.size := by
  obtain ⟨rfl, feed, s, own, hflow, -⟩ := h.sound
  obtain ⟨rest, hchain⟩ := h.furnished.chain
  have hsize :
      (Relay.posts v.plan.tuning.threadName v.wired.chain.names).length = v.wired.size := by
    rw [Relay.posts, List.length_mapIdx, v.wired.length_names_chain]
  rw [Pipeline.stageNames, ← hchain, Chain.names_append, Relay.posts, List.mapIdx_append,
    ← Relay.posts, ← hsize, List.take_left]
  exact hflow.posts

/-! ## What a run leaves -/

/-- The channels that a run creates have the capacity of the tuning. -/
theorem capacity_of_created (p : Plan α ω) {id n : Nat} (h : .created id n ∈ p.journal l₀) :
    n = p.tuning.capacity.val := by
  have hfresh {i : Nat} (hsame : Event.created id n = (p.fresh l₀ i).creation) :
      n = p.tuning.capacity.val := by
    cases hsame
    rfl
  simp only [journal, List.mem_append, List.mem_map] at h
  obtain ((((hset | hturn) | ⟨_, -, hsame⟩) | ⟨record, -, hsame⟩) | hlast) := h
  · obtain ⟨i, hsame⟩ | ⟨_, hsame⟩ := mem_setup hset
    · exact hfresh hsame
    · cases hsame
  · obtain ⟨_, _, hsame⟩ | ⟨i, hsame⟩ := mem_turn hturn
    · cases hsame
    · exact hfresh hsame
  · cases hsame
  · rw [Record.release] at hsame
    split at hsame <;> cases hsame
  · cases (mem_finale hlast).1

/-- No run fails for want of a capacity. -/
theorem verdict_ne_invalidCapacity (p : Plan α ω) (l₀ : Ledger) (context : List String) (n : Nat) :
    p.verdict l₀ ≠ .failed ⟨context, .invalidCapacity n⟩ := by
  have hsettles := p.settles_verdict l₀
  generalize l₀.after p.channels p.started = l at hsettles
  generalize p.verdict l₀ = e at hsettles
  cases hsettles with
  | worked => split <;> nofun
  | panicked | refused | unwound => nofun

end Plan

/-- What a run leaves that has come to its end. -/
structure Aftermath (ω : Type) where
  ending : Ending ω
  ledger : Ledger
  /-- What the caller has logged. -/
  log : List Event
  /-- What was done to the value, by whom and on which thread. -/
  deeds : List Deed
  /-- The stages that were started. -/
  posts : List Post

namespace Plan

variable {p : Plan α ω} {l₀ : Ledger} {left : Aftermath ω}

/-- What a run of a plan leaves if it begins with ledger `l₀`. -/
def aftermath (p : Plan α ω) (l₀ : Ledger) : Aftermath ω where
  ending := p.verdict l₀
  ledger := l₀.after p.channels p.started
  log := p.journal l₀
  deeds := p.transcript
  posts := (Relay.posts p.tuning.threadName p.pipeline.stageNames).take p.started

/-- Some run of a plan that begins with ledger `l₀` comes to its end and leaves this. -/
def EndsIn (p : Plan α ω) (l₀ : Ledger) (left : Aftermath ω) : Prop :=
  ∃ schedule v, p.Reaches l₀ schedule left.deeds left.ledger v ∧
    v.ending? = some left.ending ∧ v.custody.log = left.log ∧ v.wired.posts = left.posts

/-- In the end as many threads were started as the plan has it. -/
theorem At.size_of_ended {c : Custody} {w : Wired α β} {phase : Phase α ω β} {feed : Feed}
    {s : Supply β} {own deeds : List Deed} {e : Ending ω}
    (hstands : p.At c w phase feed s own deeds)
    (hended : (⟨p, c, w, phase⟩ : Invocation α ω).ending? = some e) : w.size = p.started := by
  cases hstands with
  | finished hthrough => exact hthrough.started.symm
  | _ => cases hended

/-- **What a run leaves is decided by its plan and the ledger that it begins with**, and every run
can be brought there. -/
theorem endsIn_iff : p.EndsIn l₀ left ↔ left = p.aftermath l₀ := by
  have hunique {left : Aftermath ω} (h : p.EndsIn l₀ left) : left = p.aftermath l₀ := by
    obtain ⟨ending, ledger, log, deeds, posts⟩ := left
    obtain ⟨schedule, v, hreached, hended, hlogged, hposted⟩ := h
    obtain ⟨haccounts, hverdict⟩ := hreached.ended hended
    obtain ⟨rfl, feed, s, own, -, hstands⟩ := hreached.sound
    have hsize := hstands.size_of_ended hended
    rw [aftermath, ← haccounts, ← hverdict, ← hreached.log_of_ended hended,
      ← hreached.sound.transcript_of_ended hended, ← hsize, ← hreached.posts, hlogged, hposted]
  refine ⟨hunique, ?_⟩
  rintro rfl
  have hbegun : p.Reaches l₀ [] [] l₀ p.start := .start
  obtain ⟨schedule, deeds, l, v, hreached, hended⟩ := hbegun.exists_ended
  obtain ⟨e, hended⟩ := Option.isSome_iff_exists.mp hended
  have hleaves : p.EndsIn l₀ ⟨e, l, v.custody.log, deeds, v.wired.posts⟩ :=
    ⟨_, v, hreached, hended, rfl, rfl⟩
  exact hunique hleaves ▸ hleaves

end Plan

end Relay

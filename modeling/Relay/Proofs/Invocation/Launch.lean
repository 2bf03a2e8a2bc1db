import Relay.Invocation.Step

/-!
# Which threads a run can start, and how it is to end

The caller starts the threads of the stages in order and gives up at the first that cannot be
started: `Plan.setback?` is that stage and `Plan.started` counts those before it. `Plan.channels`
counts the channels that are created by then. `Plan.verdict` says how the run is to end, from what
the host makes of the threads, what the stages make of the input, and what is live on the ledger;
`Ledger.after` says what it is to leave there.
-/

namespace Relay

/-- The ledger after a run that created some channels, and started and joined some threads. The
channels count as disposed only if no thread of others is live. -/
def Ledger.after (l : Ledger) (channels threads : Nat) : Ledger where
  channelsCreated := l.channelsCreated + channels
  channelsDisposed := l.channelsDisposed + if l.liveThreads = 0 then channels else 0
  threadsSpawned := l.threadsSpawned + threads
  threadsJoined := l.threadsJoined + threads

theorem Ledger.isBalanced_iff {l : Ledger} :
    l.isBalanced = true ↔ l.liveChannels = 0 ∧ l.liveThreads = 0 := by
  rw [isBalanced, Bool.and_eq_true, decide_eq_true_iff, decide_eq_true_iff]

namespace Plan

variable {α ω : Type} {p : Plan α ω}

/-- What comes of starting the threads of the first stages, with the name of each stage. -/
def launches (p : Plan α ω) (names : List String) : List (String × SpawnOutcome) :=
  names.mapIdx fun i name => (name, p.host (i + 1) (p.tuning.threadName name))

/-- The first stage whose thread cannot be started, and what comes of the attempt. -/
def setback? (p : Plan α ω) : Option (String × SpawnOutcome) :=
  (p.launches p.pipeline.stageNames).find? (·.2 ≠ .started)

/-- The threads of the first `n` stages can be started. -/
def StartsUpTo (p : Plan α ω) (n : Nat) : Prop :=
  ∀ i < n, ∀ name, p.pipeline.stageNames[i]? = some name →
    p.host (i + 1) (p.tuning.threadName name) = .started

/-- The thread of every stage can be started. -/
def Starts (p : Plan α ω) : Prop :=
  p.StartsUpTo p.pipeline.length

/-- The number of threads that are started, those before the first that cannot be. -/
def started (p : Plan α ω) : Nat :=
  ((p.launches p.pipeline.stageNames).takeWhile (·.2 = .started)).length

/-- The number of channels that are created: one to feed the first stage and one behind each stage
whose thread the caller tries to start. -/
def channels (p : Plan α ω) : Nat :=
  p.started + 1 + if p.setback?.isSome then 1 else 0

/-- How a run ends if this came of starting the thread of a stage. -/
def setbackEnding (p : Plan α ω) (stage : String) : SpawnOutcome → Ending ω
  | .unwound => .unwound
  | _ => .failed (p.spawnFailure stage)

/-- How a run ends that begins with ledger `l`. A setback outranks a panic, and a panic outranks
threads of others that are live when the channels are to be disposed. -/
def verdict (p : Plan α ω) (l : Ledger) : Ending ω :=
  match p.setback? with
  | some (stage, o) => p.setbackEnding stage o
  | none =>
    match p.pipeline.chain.eval p.tuning.threadName p.input with
    | .error stage => .failed ⟨[], .stagePanicked stage⟩
    | .ok value =>
      if l.liveThreads = 0 then .returned value
      else .failed ⟨[], .disposeWhileInUse (l.channelsCreated + 1) l.liveThreads⟩

theorem launches_cons_append (names rest : List String) (name : String) :
    p.launches (names ++ name :: rest) = p.launches names ++
      (name, p.host (names.length + 1) (p.tuning.threadName name)) ::
        rest.mapIdx fun i n => (n, p.host (i + 1 + names.length + 1) (p.tuning.threadName n)) := by
  simp only [launches, List.mapIdx_append, List.mapIdx_cons, Nat.zero_add]

theorem forall_launches_snoc {names : List String} {name : String}
    (h : ∀ x ∈ p.launches names, x.2 = .started)
    (ho : p.host (names.length + 1) (p.tuning.threadName name) = .started) :
    ∀ x ∈ p.launches (names ++ [name]), x.2 = .started := by
  intro x hx
  rw [launches_cons_append, List.mapIdx_nil, List.mem_append, List.mem_singleton] at hx
  rcases hx with hx | rfl
  · exact h x hx
  · exact ho

/-- The caller gives up at the stage whose thread comes next. -/
theorem setback?_eq_some {names rest : List String} {name : String} {o : SpawnOutcome}
    (h : ∀ x ∈ p.launches names, x.2 = .started)
    (hnames : p.pipeline.stageNames = names ++ name :: rest)
    (ho : p.host (names.length + 1) (p.tuning.threadName name) = o) (hne : o ≠ .started) :
    p.setback? = some (name, o) ∧ p.started = names.length := by
  have hnone : (p.launches names).find? (·.2 ≠ .started) = none := by
    rw [List.find?_eq_none]
    intro x hx
    simp [h x hx]
  rw [setback?, started, hnames, launches_cons_append, ho]
  constructor
  · rw [List.find?_append, hnone, List.find?_cons_of_pos (by simpa using hne)]; rfl
  · rw [List.takeWhile_append_of_pos fun x hx => by simpa using h x hx,
      List.takeWhile_cons_of_neg (by simpa using hne), List.append_nil, launches,
      List.length_mapIdx]

/-- Every thread is started. -/
theorem setback?_eq_none (h : ∀ x ∈ p.launches p.pipeline.stageNames, x.2 = .started) :
    p.setback? = none ∧ p.started = p.pipeline.length := by
  constructor
  · rw [setback?, List.find?_eq_none]
    intro x hx
    simp [h x hx]
  · rw [started, ← List.append_nil (p.launches _),
      List.takeWhile_append_of_pos fun x hx => by simpa using h x hx, List.takeWhile_nil,
      List.append_nil, launches, List.length_mapIdx]
    exact Chain.length_names p.pipeline.chain

theorem getElem?_launches (i : Nat) :
    (p.launches p.pipeline.stageNames)[i]? = (p.pipeline.stageNames[i]?).map fun name =>
      (name, p.host (i + 1) (p.tuning.threadName name)) :=
  List.getElem?_mapIdx

theorem setback?_of_starts (h : p.Starts) : p.setback? = none := by
  refine (setback?_eq_none fun x hx => ?_).1
  obtain ⟨i, hi, rfl⟩ := List.mem_mapIdx.mp hx
  have hlt : i < p.pipeline.length := Nat.lt_of_lt_of_eq hi p.pipeline.chain.length_names
  exact h i hlt _ (List.getElem?_eq_getElem hi)

theorem starts_of_setback? (h : p.setback? = none) :
    p.Starts ∧ p.started = p.pipeline.length := by
  have hall : ∀ x ∈ p.launches p.pipeline.stageNames, x.2 = .started := by
    intro x hx
    have := List.find?_eq_none.mp h x hx
    simpa using this
  refine ⟨fun i _ name hname => ?_, (setback?_eq_none hall).2⟩
  have hget := getElem?_launches (p := p) i
  rw [hname] at hget
  exact hall _ (List.mem_of_getElem? hget)

/-- The stage at which the caller gives up comes right after those whose threads are started. -/
theorem of_setback? {stage : String} {o : SpawnOutcome} (h : p.setback? = some (stage, o)) :
    p.StartsUpTo p.started ∧ p.pipeline.stageNames[p.started]? = some stage ∧
      p.host (p.started + 1) (p.tuning.threadName stage) = o ∧ o ≠ .started := by
  obtain ⟨hne, front, back, hsplit, hfront⟩ := List.find?_eq_some_iff_append.mp h
  have hstarted : p.started = front.length := by
    rw [started, hsplit, List.takeWhile_append_of_pos fun x hx => by simpa using hfront x hx,
      List.takeWhile_cons_of_neg (by simpa using hne), List.append_nil]
  have hget := getElem?_launches (p := p) p.started
  rw [hsplit, hstarted, List.getElem?_append_right (Nat.le_refl _), Nat.sub_self,
    List.getElem?_cons_zero, ← hstarted] at hget
  obtain ⟨name, hname, heq⟩ := Option.map_eq_some_iff.mp hget.symm
  cases heq
  refine ⟨fun i hi name hi' => ?_, hname, rfl, by simpa using hne⟩
  have hget := getElem?_launches (p := p) i
  rw [hi', hsplit, List.getElem?_append_left (hstarted ▸ hi)] at hget
  simpa using hfront _ (List.mem_of_getElem? hget)

theorem channels_of_setback {x : String × SpawnOutcome} (h : p.setback? = some x) :
    p.channels = p.started + 2 := by
  rw [channels, h]; rfl

theorem channels_of_launched (h : p.setback? = none) : p.channels = p.started + 1 := by
  rw [channels, h]; rfl

end Plan

end Relay

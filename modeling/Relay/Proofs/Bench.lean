import Relay.Proofs.Invocation.Blueprint
import Relay.Proofs.Invocation.Posts
import Relay.Proofs.Sorting.Pipelines
import Relay.Session.Action

/-!
# Pipelines that are built, copied and run

On a bench there are pipelines. New ones are started, stages and options are added to them, copies
are made, and any of them is run as often as one likes, in any order (`Bench.Step`). The bench keeps
for each pipeline how it was built, and for each run what it left.

* `Build.Governs`: what a build decides of its pipeline and of every run of it;
* `Blueprint.Mirrors`: the blueprint that is built by the same calls wires what the runs do;
* `Bench.Lawful.step`, `Bench.Reaches.lawful`: nothing else matters to what any run leaves;
* `Bench.follows_builds`: all of this together.
-/

namespace Relay

variable {α ω : Type}

/-! ## What a build decides -/

/-- What a build decides of its pipeline: the stages in order, the options that were added last, and
nothing but these, at any time of any run. -/
structure Build.Governs (b : Build α ω) (p : Pipeline α ω) : Prop where
  names : p.stageNames = b.stages.names
  length : p.length = b.stages.names.length
  /-- However else the stages and the options are interleaved, it is the same pipeline. -/
  unique : ∀ b' : Build α ω, b'.stages = b.stages → b'.options = b.options →
    ∀ p', b'.pipeline? = .ok p' → p' = p
  /-- The stages that run are the first ones that were added. -/
  wired : ∀ input host l₀ schedule deeds l v,
    (Plan.mk p input host).Reaches l₀ schedule deeds l v →
      ∃ rest, v.wired.chain.append rest = b.stages
  /-- They have their places in order, and threads of their names. -/
  posts : ∀ input host l₀ schedule deeds l v,
    (Plan.mk p input host).Reaches l₀ schedule deeds l v →
      v.wired.posts = (Relay.posts b.options.threadName b.stages.names).take v.wired.size
  /-- All channels have the capacity of the options. -/
  capacities : ∀ input host l₀ schedule deeds l v,
    (Plan.mk p input host).Reaches l₀ schedule deeds l v →
      v.wired.capacities = List.replicate (v.wired.size + 1) b.options.capacity ∧
        ∀ id n, .created id n ∈ v.custody.log → n = b.options.capacity
  /-- If all threads can be started, each stage has its post, and there is one channel more. -/
  complete : ∀ input host l₀, (Plan.mk p input host).Starts →
    ((Plan.mk p input host).aftermath l₀).posts =
      Relay.posts b.options.threadName b.stages.names ∧
    (((Plan.mk p input host).aftermath l₀).log.filterMap Event.created?).length =
      b.stages.names.length + 1
  /-- No run fails for want of a capacity. -/
  capacity : ∀ input host l₀ context n,
    ((Plan.mk p input host).aftermath l₀).ending ≠ .failed ⟨context, .invalidCapacity n⟩

theorem Plan.started_of_starts {p : Plan α ω} (h : p.Starts) :
    p.started = p.pipeline.stageNames.length ∧ p.channels = p.pipeline.stageNames.length + 1 := by
  have hsetback := setback?_of_starts h
  have hstarted : p.started = p.pipeline.stageNames.length :=
    (starts_of_setback? hsetback).2.trans (Chain.length_names _).symm
  exact ⟨hstarted, by rw [channels_of_launched hsetback, hstarted]⟩

theorem Build.governs {b : Build α ω} {p : Pipeline α ω} (h : b.pipeline? = .ok p) :
    b.Governs p := by
  obtain ⟨hchain, htuning⟩ := of_pipeline? h
  have hoptions := Tuning.options_of_ofOptions? htuning
  have hnames : p.stageNames = b.stages.names := congrArg Chain.names hchain
  have hthreadName : p.tuning.threadName = b.options.threadName := hoptions ▸ rfl
  have hcapacity : p.tuning.capacity.val = b.options.capacity := hoptions ▸ rfl
  constructor
  · exact hnames
  · rw [Pipeline.length, ← Chain.length_names, hchain]
  · intro b' hsameStages hsameOptions p' hbuilt
    obtain ⟨hchain', htuning'⟩ := of_pipeline? hbuilt
    rw [hsameOptions, htuning, Except.ok.injEq] at htuning'
    obtain ⟨_, _⟩ := p
    obtain ⟨_, _⟩ := p'
    rw [Pipeline.mk.injEq]
    exact ⟨hchain'.trans (hsameStages.trans hchain.symm), htuning'.symm⟩
  · intro input host l₀ schedule deeds l v hreached
    rw [← hchain]
    exact hreached.furnished.chain
  · intro input host l₀ schedule deeds l v hreached
    rw [← hthreadName, ← hnames]
    exact hreached.posts
  · intro input host l₀ schedule deeds l v hreached
    rw [← hcapacity]
    refine ⟨hreached.furnished.capacities, fun id n hcreated => ?_⟩
    exact Plan.capacity_of_created _ (hreached.keeps_journal.1.1.subset hcreated)
  · intro input host l₀ hstarts
    obtain ⟨hstarted, hchannels⟩ := Plan.started_of_starts hstarts
    rw [← hthreadName, ← hnames]
    constructor
    · rw [Plan.aftermath, hstarted]
      refine List.take_of_length_le ?_
      rw [Relay.posts, List.length_mapIdx]
    · rw [Plan.aftermath, Plan.created_journal, List.length_map, Plan.length_filed, hchannels]
  · intro input host l₀ context n
    exact Plan.verdict_ne_invalidCapacity _ l₀ context n

/-- A blueprint comes to what the runs of a pipeline come to when they wire the stages. -/
structure Blueprint.Mirrors (q : Blueprint α ω) (p : Pipeline α ω) : Prop where
  names : q.names = p.stageNames
  /-- No channel is refused. -/
  accepts : ∀ (_ : α) host l₀ fault, q.rig host l₀ ≠ .refused fault
  /-- All stages are wired. -/
  ready : ∀ input host l₀ schedule deeds l c w,
    (Plan.mk p input host).Reaches l₀ schedule deeds l ⟨⟨p, input, host⟩, c, w, .wiring .nil⟩ →
      q.rig host l₀ = .ready ⟨l, c, w⟩
  /-- The thread of the next stage cannot be started. -/
  stopped : ∀ input host l₀ schedule deeds l c β γ (w : Wired α β) (s : Stage β γ) out rest,
    (Plan.mk p input host).Reaches l₀ schedule deeds l
      ⟨⟨p, input, host⟩, c, w, .spawning s out rest⟩ →
    host (w.size + 1) (p.tuning.threadName s.name) ≠ .started →
      q.rig host l₀ = .stopped ⟨l, c, w⟩ s.name (host (w.size + 1) (p.tuning.threadName s.name))

theorem Build.mirrors {b : Build α ω} {p : Pipeline α ω} (h : b.pipeline? = .ok p) :
    ∃ q, b.blueprint? = .ok q ∧ q.options = b.options ∧ q.Mirrors p := by
  cases hbuilt : b.blueprint? with
  | error fault => rw [(b.error_iff fault).mp hbuilt] at h; cases h
  | ok q =>
    obtain ⟨hnames, hoptions, -⟩ := of_blueprint? hbuilt
    refine ⟨q, rfl, hoptions, hnames.trans (governs h).names.symm, ?_, ?_, ?_⟩
    · intro input host l₀ fault
      rw [Build.rig_eq_rigging h hbuilt input]
      exact Chain.rig_ne_refused _ _ _ _ fault
    · intro input host l₀ schedule deeds l c w hreached
      rw [Build.rig_eq_rigging h hbuilt input]
      exact hreached.rigging_of_wired
    · intro input host l₀ schedule deeds l c β γ w s out rest hreached hfails
      rw [Build.rig_eq_rigging h hbuilt input]
      exact hreached.rigging_of_stopped hfails

/-! ## The bench -/

/-- A pipeline, and how it was built. -/
structure Workpiece : Type 1 where
  {source target : Type}
  build : Build source target
  pipeline : Pipeline source target

/-- A run that has come to its end: how its pipeline was built, what it was given and what it
left. -/
structure Trial : Type 1 where
  {source target : Type}
  build : Build source target
  input : source
  /-- What comes of starting threads. -/
  host : Nat → String → SpawnOutcome
  /-- The ledger at the start. -/
  ledger : Ledger
  left : Aftermath target

/-- The pipelines at hand, and the runs so far. -/
structure Bench : Type 1 where
  pieces : List Workpiece := []
  trials : List Trial := []

namespace Bench

/-- What can be done on a bench. -/
inductive Step : Bench → Bench → Prop where
  | new {pieces : List Workpiece} {trials : List Trial} (τ : Type) :
    Step ⟨pieces, trials⟩ ⟨pieces ++ [⟨.new, (.new : Pipeline τ τ)⟩], trials⟩
  | stage {front back : List Workpiece} {trials : List Trial} {α β γ : Type} {b : Build α β}
    {p : Pipeline α β} (s : Stage β γ) :
    Step ⟨front ++ ⟨b, p⟩ :: back, trials⟩ ⟨front ++ ⟨b.stage s, p.stage s⟩ :: back, trials⟩
  | withOptions {front back : List Workpiece} {trials : List Trial} {α β : Type} {b : Build α β}
    {p q : Pipeline α β} {o : PipelineOptions} : p.withOptions o = .ok q →
    Step ⟨front ++ ⟨b, p⟩ :: back, trials⟩ ⟨front ++ ⟨b.withOptions o, q⟩ :: back, trials⟩
  /-- A pipeline for which options are refused is lost. -/
  | spoil {front back : List Workpiece} {trials : List Trial} {α β : Type} {b : Build α β}
    {p : Pipeline α β} {o : PipelineOptions} {fault : Fault} : p.withOptions o = .error fault →
    Step ⟨front ++ ⟨b, p⟩ :: back, trials⟩ ⟨front ++ back, trials⟩
  | clone {pieces : List Workpiece} {trials : List Trial} {x : Workpiece} : x ∈ pieces →
    Step ⟨pieces, trials⟩ ⟨pieces ++ [x], trials⟩
  | run {pieces : List Workpiece} {trials : List Trial} {α β : Type} {b : Build α β}
    {p : Pipeline α β} {input : α} {host : Nat → String → SpawnOutcome} {l₀ : Ledger}
    {left : Aftermath β} : ⟨b, p⟩ ∈ pieces → (Plan.mk p input host).EndsIn l₀ left →
    Step ⟨pieces, trials⟩ ⟨pieces, trials ++ [⟨b, input, host, l₀, left⟩]⟩
  /-- A run with other options goes through a pipeline of its own, on a ledger of its own. -/
  | runWith {pieces : List Workpiece} {trials : List Trial} {α β : Type} {b : Build α β}
    {p q : Pipeline α β} {o : PipelineOptions} {input : α} {host : Nat → String → SpawnOutcome}
    {left : Aftermath β} : ⟨b, p⟩ ∈ pieces → p.withOptions o = .ok q →
    (Plan.mk q input host).EndsIn .empty left →
    Step ⟨pieces, trials⟩ ⟨pieces, trials ++ [⟨b.withOptions o, input, host, .empty, left⟩]⟩

/-- What an empty bench can come to. -/
inductive Reaches : Bench → Prop where
  | start : Reaches {}
  | step {bench bench' : Bench} : Reaches bench → Step bench bench' → Reaches bench'

end Bench

/-- The run left what the stages and the last options of its pipeline, its input and its ledger
decide. -/
def Trial.Lawful (t : Trial) : Prop :=
  ∃ tuning, Tuning.ofOptions? t.build.options = .ok tuning ∧
    t.left = (Plan.mk ⟨t.build.stages, tuning⟩ t.input t.host).aftermath t.ledger

/-- Every pipeline is the one that its build makes, and every run was lawful. -/
structure Bench.Lawful (bench : Bench) : Prop where
  built : ∀ x ∈ bench.pieces, x.build.pipeline? = .ok x.pipeline
  tried : ∀ t ∈ bench.trials, t.Lawful

theorem Trial.lawful_of_endsIn {b : Build α ω} {p : Pipeline α ω} {input : α}
    {host : Nat → String → SpawnOutcome} {l₀ : Ledger} {left : Aftermath ω}
    (hbuilt : b.pipeline? = .ok p) (hended : (Plan.mk p input host).EndsIn l₀ left) :
    (⟨b, input, host, l₀, left⟩ : Trial).Lawful := by
  obtain ⟨hchain, htuning⟩ := Build.of_pipeline? hbuilt
  refine ⟨_, htuning, ?_⟩
  rw [← hchain]
  exact Plan.endsIn_iff.mp hended

theorem Build.pipeline?_withOptions {b : Build α ω} {p q : Pipeline α ω} {o : PipelineOptions}
    (hbuilt : b.pipeline? = .ok p) (htaken : p.withOptions o = .ok q) :
    (b.withOptions o).pipeline? = .ok q := by
  rw [pipeline?, hbuilt]
  exact htaken

namespace Bench

variable {bench bench' : Bench}

/-- **Whatever is done on a bench keeps it lawful.** -/
theorem Lawful.step (h : bench.Lawful) (hstep : Step bench bench') : bench'.Lawful := by
  obtain ⟨hbuilt, htried⟩ := h
  cases hstep with
  | new τ => exact ⟨List.forall_mem_append.mpr ⟨hbuilt, List.forall_mem_singleton.mpr rfl⟩, htried⟩
  | @stage _ _ _ _ _ _ b p s =>
    rw [List.forall_mem_append, List.forall_mem_cons] at hbuilt
    obtain ⟨hbefore, hpiece, hbehind⟩ := hbuilt
    have hstaged : (b.stage s).pipeline? = .ok (p.stage s) := by
      rw [Build.pipeline?, hpiece]
      rfl
    exact ⟨List.forall_mem_append.mpr ⟨hbefore, List.forall_mem_cons.mpr ⟨hstaged, hbehind⟩⟩,
      htried⟩
  | withOptions htaken =>
    rw [List.forall_mem_append, List.forall_mem_cons] at hbuilt
    obtain ⟨hbefore, hpiece, hbehind⟩ := hbuilt
    have htuned := Build.pipeline?_withOptions hpiece htaken
    exact ⟨List.forall_mem_append.mpr ⟨hbefore, List.forall_mem_cons.mpr ⟨htuned, hbehind⟩⟩, htried⟩
  | spoil =>
    rw [List.forall_mem_append, List.forall_mem_cons] at hbuilt
    exact ⟨List.forall_mem_append.mpr ⟨hbuilt.1, hbuilt.2.2⟩, htried⟩
  | clone hmember =>
    exact ⟨List.forall_mem_append.mpr ⟨hbuilt, List.forall_mem_singleton.mpr (hbuilt _ hmember)⟩,
      htried⟩
  | run hmember hended =>
    have hlawful := Trial.lawful_of_endsIn (hbuilt _ hmember) hended
    exact ⟨hbuilt, List.forall_mem_append.mpr ⟨htried, List.forall_mem_singleton.mpr hlawful⟩⟩
  | runWith hmember htaken hended =>
    have htuned := Build.pipeline?_withOptions (hbuilt _ hmember) htaken
    have hlawful := Trial.lawful_of_endsIn htuned hended
    exact ⟨hbuilt, List.forall_mem_append.mpr ⟨htried, List.forall_mem_singleton.mpr hlawful⟩⟩

theorem Reaches.lawful (h : Reaches bench) : bench.Lawful := by
  induction h with
  | start => exact ⟨nofun, nofun⟩
  | step _ hstep ih => exact ih.step hstep

/-- Whatever can be built can be put on a bench. -/
theorem Reaches.build {b : Build α ω} {p : Pipeline α ω} (h : Reaches bench)
    (hbuilt : b.pipeline? = .ok p) : Reaches ⟨bench.pieces ++ [⟨b, p⟩], bench.trials⟩ := by
  induction b with
  | new =>
    cases hbuilt
    exact h.step (.new _)
  | stage b s ih =>
    rw [Build.pipeline?] at hbuilt
    obtain ⟨p, hbefore, rfl⟩ := map_eq_ok_iff.mp hbuilt
    exact (ih hbefore).step (.stage s)
  | withOptions b o ih =>
    rw [Build.pipeline?] at hbuilt
    obtain ⟨p, hbefore, htaken⟩ := bind_eq_ok.mp hbuilt
    exact (ih hbefore).step (.withOptions htaken)

/-- Two runs leave the same, on whatever benches, if their pipelines have the same stages in order
and the same last options, and they are given the same. -/
theorem Reaches.left_eq {b b' : Build α ω} {input : α} {host : Nat → String → SpawnOutcome}
    {l₀ : Ledger} {left left' : Aftermath ω} (h : Reaches bench) (h' : Reaches bench')
    (hstages : b.stages = b'.stages) (hoptions : b.options = b'.options)
    (htrial : (⟨b, input, host, l₀, left⟩ : Trial) ∈ bench.trials)
    (htrial' : (⟨b', input, host, l₀, left'⟩ : Trial) ∈ bench'.trials) : left = left' := by
  obtain ⟨tuning, hmade, hlawful⟩ := h.lawful.tried _ htrial
  obtain ⟨tuning', hmade', hlawful'⟩ := h'.lawful.tried _ htrial'
  have hsame : tuning = tuning' := Except.ok.inj (hmade.symm.trans (hoptions ▸ hmade'))
  exact hlawful.trans (hstages ▸ hsame ▸ hlawful'.symm)

/-- Any pipeline on a bench can be run on any input and any ledger, and comes to its end. -/
theorem exists_trial {x : Workpiece} (hmember : x ∈ bench.pieces) (input : x.source)
    (host : Nat → String → SpawnOutcome) (l₀ : Ledger) :
    ∃ left, Step bench { bench with
      trials := bench.trials ++ [⟨x.build, input, host, l₀, left⟩] } :=
  ⟨_, .run hmember (Plan.endsIn_iff.mpr rfl)⟩

end Bench

/-! ## Options and capacities -/

theorem Capacity.exists_ofNat?_iff {n : Nat} :
    (∃ capacity, ofNat? n = .ok capacity) ↔ 1 ≤ n ∧ n ≤ maxCapacity := by
  by_cases hallowed : 1 ≤ n ∧ n ≤ maxCapacity
  · simp [ofNat?, hallowed]
  · simp [ofNat?, hallowed]

theorem Pipeline.exists_withOptions_iff {p : Pipeline α ω} {o : PipelineOptions} :
    (∃ q, p.withOptions o = .ok q) ↔ 1 ≤ o.capacity ∧ o.capacity ≤ maxCapacity := by
  by_cases hallowed : 1 ≤ o.capacity ∧ o.capacity ≤ maxCapacity
  · rw [p.withOptions_of_capacity hallowed]
    exact ⟨fun _ => hallowed, fun _ => ⟨_, rfl⟩⟩
  · rw [p.withOptions_of_not_capacity hallowed]
    exact ⟨nofun, fun h => absurd h hallowed⟩

/-- A channel is created if and only if its capacity is one that a channel can have. -/
theorem Session.create_observed_iff {s : Session} {ledger name : String} {n : Nat} :
    (s.create ledger name n).1.outcome = .observed ↔ 1 ≤ n ∧ n ≤ maxCapacity := by
  rw [← Capacity.exists_ofNat?_iff, create]
  split <;> rename_i hcapacity <;> rw [hcapacity]
  · exact ⟨nofun, nofun⟩
  · exact ⟨fun _ => ⟨_, rfl⟩, fun _ => rfl⟩

/-! ## Runs by the driver -/

namespace Pipeline

/-- What the driver gives is what every run leaves. -/
theorem run_aftermath (p : Pipeline α ω) (input : α) (l₀ : Ledger) :
    (p.run input l₀).ending = some ((Plan.mk p input p.host).aftermath l₀).ending ∧
      (p.run input l₀).ledger = ((Plan.mk p input p.host).aftermath l₀).ledger ∧
      (p.run input l₀).log = ((Plan.mk p input p.host).aftermath l₀).log :=
  ⟨p.run_ending input l₀ _, p.run_ledger input l₀ _, p.run_log input l₀ _⟩

/-- A run with other options is one of any pipeline that is built of the same stages and has these
options. -/
theorem runWith_eq_run {b b' : Build α ω} {p q : Pipeline α ω} (hbuilt : b.pipeline? = .ok p)
    (hbuilt' : b'.pipeline? = .ok q) (hstages : b'.stages = b.stages) (input : α) :
    p.runWith input b'.options = q.run input := by
  obtain ⟨hchain, htuning⟩ := Build.of_pipeline? hbuilt'
  have htuned : p.withOptions b'.options = .ok { p with tuning := q.tuning } := by
    rw [withOptions, htuning]
  have hsame : q = { p with tuning := q.tuning } :=
    (Build.governs (Build.pipeline?_withOptions hbuilt htuned)).unique b' hstages rfl q hbuilt'
  rw [runWith, htuned, ← hsame]

end Pipeline

namespace Bench

/-- **Only the stages in order and the last options matter.** Options are taken exactly if a channel
can have their capacity. What a build makes of a pipeline governs every run of it, at any time, and
its blueprint, in which each stage got its place when it was added, wires the same. Whatever is
built, copied and run before or in between, a run leaves what the stages, the last options, its
input and its ledger decide. A run with other options is one of a pipeline built with these. -/
theorem follows_builds :
    ((∀ (α ω : Type) (p : Pipeline α ω) (o : PipelineOptions),
        (∃ q, p.withOptions o = .ok q) ↔ 1 ≤ o.capacity ∧ o.capacity ≤ 65536) ∧
      ∀ (s : Session) (ledger name : String) (n : Nat),
        (s.create ledger name n).1.outcome = .observed ↔ 1 ≤ n ∧ n ≤ 65536) ∧
    (∀ (α ω : Type) (b : Build α ω) (p : Pipeline α ω), b.pipeline? = .ok p →
      (∃ bench, Reaches bench ∧ ⟨b, p⟩ ∈ bench.pieces) ∧ b.Governs p ∧
      (∃ q, b.blueprint? = .ok q ∧ q.options = b.options ∧ q.Mirrors p) ∧
      ∀ input : α,
        (∀ l₀, let left := (Plan.mk p input p.host).aftermath l₀
          (p.run input l₀).ending = some left.ending ∧ (p.run input l₀).ledger = left.ledger ∧
            (p.run input l₀).log = left.log) ∧
        (∀ (b' : Build α ω) q, b'.stages = b.stages → b'.pipeline? = .ok q →
          p.runWith input b'.options = q.run input) ∧
        ∀ o fault, p.withOptions o = .error fault → p.runWith input o =
          ⟨some (.failed ⟨[], fault⟩), .empty, [], List.replicate p.length 0⟩) ∧
    ∀ bench, Reaches bench →
      bench.Lawful ∧
      (∀ bench', Reaches bench' → ∀ (α ω : Type) (b b' : Build α ω) input host l₀ left left',
        b.stages = b'.stages → b.options = b'.options →
        (⟨b, input, host, l₀, left⟩ : Trial) ∈ bench.trials →
        (⟨b', input, host, l₀, left'⟩ : Trial) ∈ bench'.trials → left = left') ∧
      ∀ x ∈ bench.pieces, ∀ input host l₀, ∃ left,
        Step bench { bench with trials := bench.trials ++ [⟨x.build, input, host, l₀, left⟩] } := by
  refine ⟨⟨fun α ω p o => Pipeline.exists_withOptions_iff,
    fun s ledger name n => Session.create_observed_iff⟩, fun α ω b p hbuilt => ?_,
    fun bench hreached => ?_⟩
  · refine ⟨⟨_, Reaches.start.build hbuilt, List.mem_singleton_self _⟩, Build.governs hbuilt,
      Build.mirrors hbuilt, fun input => ⟨p.run_aftermath input, ?_, ?_⟩⟩
    · exact fun b' q hstages hbuilt' => Pipeline.runWith_eq_run hbuilt hbuilt' hstages input
    · exact fun o fault hrefused => Pipeline.runWith_of_error hrefused input
  · refine ⟨hreached.lawful, ?_, fun x hmember => exists_trial hmember⟩
    exact fun bench' hreached' α ω b b' input host l₀ left left' hstages hoptions =>
      hreached.left_eq hreached' hstages hoptions

/-- Two stages, of which the second was added after the options. -/
def specimen : Build Nat Nat :=
  (Build.new.stage (.pure "double" (2 * ·)))
    |>.withOptions { capacity := 2, threadPrefix := "worker" }
    |>.stage ⟨"check", fun _ n => if n < 10 then some n else none⟩

/-- The same stages, with other options before the same ones at the end. -/
def specimenAgain : Build Nat Nat :=
  ((Build.new.withOptions { capacity := 7 }).stage (.pure "double" (2 * ·)))
    |>.stage ⟨"check", fun _ n => if n < 10 then some n else none⟩
    |>.withOptions { capacity := 2, threadPrefix := "worker" }

theorem follows_builds_specimen :
    ∃ p p' bench left, specimen.pipeline? = .ok p ∧ specimenAgain.pipeline? = .ok p' ∧
      (Reaches bench ∧ bench.trials =
        [⟨specimen, (3 : Nat), fun _ _ => .started, .empty, left⟩,
          ⟨specimenAgain, (3 : Nat), fun _ _ => .started, .empty, left⟩]) ∧
      (left.ending = .returned 6 ∧
        left.posts = [⟨1, "double", "worker-double"⟩, ⟨2, "check", "worker-check"⟩]) ∧
      p.runWith 3 { capacity := 2, threadPrefix := "worker" } = p'.run 3 ∧
      (p.runWith 3 { capacity := 0 }).ending = some (.failed ⟨[], .invalidCapacity 0⟩) := by
  obtain ⟨-, hbuilds, hbenches⟩ := follows_builds
  obtain ⟨p, hbuilt⟩ : ∃ p, specimen.pipeline? = .ok p := ⟨_, rfl⟩
  obtain ⟨p', hbuilt'⟩ : ∃ p, specimenAgain.pipeline? = .ok p := ⟨_, rfl⟩
  let pieces : List Workpiece := [⟨specimen, p⟩, ⟨specimenAgain, p'⟩]
  have hreached : Reaches ⟨pieces, []⟩ := (Reaches.start.build hbuilt).build hbuilt'
  obtain ⟨left, hran⟩ := (hbenches _ hreached).2.2 _ List.mem_cons_self (3 : Nat)
    (fun _ _ => .started) .empty
  have hreached := hreached.step hran
  obtain ⟨left', hran'⟩ := (hbenches _ hreached).2.2 ⟨specimenAgain, p'⟩
    (List.mem_cons_of_mem _ List.mem_cons_self) (3 : Nat) (fun _ _ => .started) .empty
  have hreached := hreached.step hran'
  obtain ⟨hlawful, hsame, -⟩ := hbenches _ hreached
  obtain rfl : left = left' := hsame _ hreached _ _ specimen specimenAgain _ _ _ _ _ rfl rfl
    List.mem_cons_self (List.mem_cons_of_mem _ List.mem_cons_self)
  obtain ⟨tuning, hmade, hdecided⟩ := hlawful.tried _ List.mem_cons_self
  cases hmade
  have hdecided : left = (Plan.mk ⟨specimen.stages, ⟨{ val := 2 }, "worker", none⟩⟩ (3 : Nat)
    fun _ _ => .started).aftermath .empty := hdecided
  obtain ⟨-, -, -, hruns⟩ := hbuilds _ _ specimen p hbuilt
  obtain ⟨-, hother, hrefused⟩ := hruns 3
  refine ⟨p, p', _, left, hbuilt, hbuilt', ⟨hreached, rfl⟩, ?_,
    hother specimenAgain p' rfl hbuilt', ?_⟩
  · rw [hdecided]
    exact ⟨by decide +kernel, by decide +kernel⟩
  · rw [hrefused { capacity := 0 } (.invalidCapacity 0) rfl]

end Bench

end Relay

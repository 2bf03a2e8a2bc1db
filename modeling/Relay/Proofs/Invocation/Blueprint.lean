import Relay.Invocation.Blueprint
import Relay.Proofs.Except
import Relay.Proofs.Invocation.Sound

/-!
# Builds, pipelines and blueprints

A pipeline keeps its stages as a chain, and its caller wires them step by step, each at the place
behind those wired before. A blueprint keeps their names, and a function that was wrapped around
another one for each stage and holds on to the place that the stage had then. Built by the same
calls, the two agree:

* `Build.of_pipeline?`, `Build.of_blueprint?`: what is built depends on the stages in order and on
  the options that were added last;
* `Build.error_iff`: one of them is refused with the other;
* `Build.rig_eq_rigging`: the blueprint comes to what wiring the stages one after the other does;
* `Plan.Reaches.comesTo`: whatever the schedule, the caller comes to it too.
-/

namespace Relay

variable {α β γ δ ω : Type}

/-! ## Wiring a chain -/

namespace Rigging

theorem bind_assoc (x : Rigging α β) (f : Rig α β → Rigging α γ) (g : Rig α γ → Rigging α δ) :
    (x.bind f).bind g = x.bind fun r => (f r).bind g := by
  cases x <;> rfl

theorem bind_congr {x : Rigging α β} {f g : Rig α β → Rigging α γ}
    (h : ∀ r, x = .ready r → f r = g r) : x.bind f = x.bind g := by
  cases x with
  | ready r => exact h r rfl
  | _ => rfl

end Rigging

section

variable {o : PipelineOptions} {host : Nat → String → SpawnOutcome}

/-- Wires the stages of a chain, each at the place behind those that are wired. -/
def Chain.rig (o : PipelineOptions) (host : Nat → String → SpawnOutcome) {β γ : Type} :
    Chain β γ → Rig α β → Rigging α γ
  | .nil, r => .ready r
  | .cons s rest, r => (r.add o host s (r.wired.size + 1)).bind (rest.rig o host)

theorem Chain.rig_snoc (c : Chain β γ) (s : Stage γ δ) (r : Rig α β) :
    (c.snoc s).rig o host r =
      (c.rig o host r).bind fun r => r.add o host s (r.wired.size + 1) := by
  induction c with
  | nil =>
    rw [snoc, rig, rig, Rigging.bind]
    cases r.add o host s (r.wired.size + 1) <;> rfl
  | cons t rest ih =>
    rw [snoc, rig, rig, Rigging.bind_assoc]
    exact Rigging.bind_congr fun r' _ => ih s r'

/-- A stage that is added takes one place. -/
theorem Rig.size_of_add {s : Stage β γ} {i : Nat} {r : Rig α β} {r' : Rig α γ}
    (h : r.add o host s i = .ready r') : r'.wired.size = r.wired.size + 1 := by
  rw [add] at h
  split at h
  · rw [launch] at h
    split at h <;> cases h
    rfl
  · cases h

theorem Chain.size_of_rig {c : Chain β γ} {r : Rig α β} {r' : Rig α γ}
    (h : c.rig o host r = .ready r') : r'.wired.size = r.wired.size + c.length := by
  induction c with
  | nil => cases h; rfl
  | cons s rest ih =>
    rw [rig] at h
    cases hadded : r.add o host s (r.wired.size + 1) with
    | ready r₁ =>
      rw [hadded] at h
      rw [ih h, Rig.size_of_add hadded, length]
      omega
    | _ => rw [hadded] at h; cases h

end

/-! ## What is built -/

namespace Build

variable {b : Build α β}

/-- A pipeline has the stages that were added, and the tuning of the last options. -/
theorem of_pipeline? {p : Pipeline α β} (h : b.pipeline? = .ok p) :
    p.chain = b.stages ∧ Tuning.ofOptions? b.options = .ok p.tuning := by
  induction b with
  | new => cases h; exact ⟨rfl, rfl⟩
  | stage b s ih =>
    rw [pipeline?] at h
    obtain ⟨p, hbuilt, rfl⟩ := map_eq_ok_iff.mp h
    obtain ⟨hchain, htuning⟩ := ih hbuilt
    exact ⟨congrArg (Chain.snoc · s) hchain, htuning⟩
  | withOptions b o ih =>
    rw [pipeline?] at h
    obtain ⟨p, hbuilt, h⟩ := bind_eq_ok.mp h
    rw [Pipeline.withOptions] at h
    split at h <;> cases h
    exact ⟨(ih hbuilt).1, ‹_›⟩

/-- A blueprint has the names of the stages that were added and the last options, and it wires the
stages that were added, each at its place among them. -/
theorem of_blueprint? {q : Blueprint α β} (h : b.blueprint? = .ok q) :
    q.names = b.stages.names ∧ q.options = b.options ∧
      ∀ o host r, r.wired.size = 0 → q.wire o host r = b.stages.rig o host r := by
  induction b with
  | new => cases h; exact ⟨rfl, rfl, fun _ _ _ _ => rfl⟩
  | stage b s ih =>
    rw [blueprint?] at h
    obtain ⟨q, hbuilt, rfl⟩ := map_eq_ok_iff.mp h
    obtain ⟨hnames, hoptions, hwire⟩ := ih hbuilt
    refine ⟨?_, hoptions, fun o host r hfirst => ?_⟩
    · rw [Blueprint.stage, hnames, stages, Chain.names_snoc]
    · -- The place that the stage was given then is the one behind those that are wired now.
      rw [stages, Chain.rig_snoc, ← hwire o host r hfirst]
      refine Rigging.bind_congr fun r' hready => ?_
      rw [hwire o host r hfirst] at hready
      rw [Chain.size_of_rig hready, hfirst, hnames, Chain.length_names, Nat.zero_add]
  | withOptions b o ih =>
    rw [blueprint?] at h
    obtain ⟨q, hbuilt, h⟩ := bind_eq_ok.mp h
    obtain ⟨capacity, -, rfl⟩ := map_eq_ok_iff.mp h
    obtain ⟨hnames, -, hwire⟩ := ih hbuilt
    exact ⟨hnames, rfl, hwire⟩

/-- The same calls are refused for either. -/
theorem error_iff (b : Build α β) (fault : Fault) :
    b.blueprint? = .error fault ↔ b.pipeline? = .error fault := by
  have hsame : b.blueprint?.map (fun _ => ()) = b.pipeline?.map fun _ => () := by
    induction b with
    | new => rfl
    | stage b s ih =>
      rw [blueprint?, pipeline?]
      cases hq : b.blueprint? <;> cases hp : b.pipeline? <;> rw [hq, hp] at ih <;>
        exact ih
    | withOptions b o ih =>
      rw [blueprint?, pipeline?]
      cases hq : b.blueprint? <;> cases hp : b.pipeline? <;> rw [hq, hp] at ih
      · exact ih
      · cases ih
      · cases ih
      · simp only [Except.bind, Blueprint.withOptions, Pipeline.withOptions, Tuning.ofOptions?]
        cases Capacity.ofNat? o.capacity <;> rfl
  cases hq : b.blueprint? <;> cases hp : b.pipeline? <;> rw [hq, hp] at hsame
  · cases hsame
    rw [Except.error.injEq, Except.error.injEq]
  · cases hsame
  · cases hsame
  · exact ⟨nofun, nofun⟩

end Build

/-! ## What the caller of a run wires -/

/-- No thread moves before the caller has sent the input. -/
theorem Flow.still {t : String → String} {x : α} {s : Supply β} {h : List Deed}
    (hflow : Flow t x .idle w s h) (i : Nat) : w.step i = none := by
  induction hflow with
  | entry => rfl
  | @lane _ _ w l r s h own hbefore hfits ih =>
    obtain ⟨rfl, -⟩ := hbefore.of_idle
    have hwaiting := hfits.stand.waiting_of_pending.1
    rw [Wired.step, ih]
    split
    · rw [Lane.step, hwaiting, Worker.receive, hbefore.carries.receive_pending]
      rfl
    · rfl

/-- The options that a tuning was made of. -/
def Tuning.options (t : Tuning) : PipelineOptions :=
  ⟨t.capacity.val, t.threadPrefix, t.stackSize⟩

theorem Tuning.options_of_ofOptions? {o : PipelineOptions} {t : Tuning}
    (h : ofOptions? o = .ok t) : t.options = o := by
  rw [ofOptions?, Capacity.ofNat?] at h
  split at h <;> rename_i hcapacity <;> split at hcapacity <;> cases hcapacity <;> cases h
  rfl

/-- A channel of the capacity of a tuning is not refused when it is created. -/
theorem Custody.create?_options (t : Tuning) (c : Custody) (τ : Type) (l : Ledger) :
    c.create? t.options.capacity τ l =
      .ok (.ofCapacity t.capacity,
        (c.file (Record.create t.capacity l).1).note [(Record.create t.capacity l).1.creation],
        (Record.create t.capacity l).2) := by
  rw [create?, Tuning.options, t.capacity.ofNat?_val]
  rfl

/-- No channel is refused while stages are wired by the options of a tuning. -/
theorem Chain.rig_ne_refused (t : Tuning) (host : Nat → String → SpawnOutcome) (c : Chain β γ)
    (r : Rig α β) (fault : Fault) : c.rig t.options host r ≠ .refused fault := by
  induction c with
  | nil => nofun
  | cons s rest ih =>
    rw [rig, Rig.add, Custody.create?_options]
    simp only [Rig.launch]
    split
    · exact ih _
    · nofun

namespace Plan

variable {p : Plan α ω} {l₀ l l' : Ledger} {c : Custody} {w : Wired α β} {phase : Phase α ω β}
  {x : Rigging α ω}

/-- What the wiring of a run comes to. -/
def rigging (p : Plan α ω) (l₀ : Ledger) : Rigging α ω :=
  let (c, l) := Invocation.acquire p {} l₀
  p.pipeline.chain.rig p.tuning.options p.host ⟨l, c, .entry (.ofCapacity p.tuning.capacity)⟩

/-- The wiring comes to `x` if the caller goes on. -/
def ComesTo (p : Plan α ω) (l : Ledger) (c : Custody) (x : Rigging α ω) {β : Type} :
    Wired α β → Phase α ω β → Prop
  | w, .opening =>
    p.pipeline.chain.rig p.tuning.options p.host
      ⟨(Invocation.acquire p c l).2, (Invocation.acquire p c l).1, w⟩ = x
  | w, .wiring rest => rest.rig p.tuning.options p.host ⟨l, c, w⟩ = x
  | w, .spawning s out rest =>
    (Rig.launch p.tuning.options p.host s (w.size + 1) out ⟨l, c, w⟩).bind
      (rest.rig p.tuning.options p.host) = x
  | _, _ => True

theorem ComesTo.caller {v : Invocation α ω} (h : p.ComesTo l c x w phase)
    (hacts : Invocation.Acts p l ⟨p, c, w, phase⟩ l' v) :
    p.ComesTo l' v.custody x v.wired v.phase := by
  cases hacts with
  | opens => exact h
  | adds =>
    rw [ComesTo, Chain.rig, Rig.add, Custody.create?_options] at h
    exact h
  | starts hstarted =>
    have hstarted : p.host (w.size + 1) (p.tuning.options.threadName _) = .started := hstarted
    rw [ComesTo, Rig.launch, hstarted] at h
    exact h
  | _ => trivial

theorem ComesTo.thread {feed : Feed} {s : Supply β} {own deeds : List Deed} {i : Nat}
    {w' : Wired α β} (h : p.ComesTo l c x w phase)
    (hflow : Flow p.tuning.threadName p.input feed w s own)
    (hstands : p.At c w phase feed s own deeds) (hmoved : w.step i = some w') :
    p.ComesTo l c x w' phase := by
  cases hstands with
  | opening | wiring | spawning => rw [hflow.still] at hmoved; cases hmoved
  | _ => trivial

/-- **What a run wires is decided from the start**, whatever the schedule. -/
theorem Reaches.comesTo {schedule : List Move} {deeds : List Deed} {v : Invocation α ω}
    (h : p.Reaches l₀ schedule deeds l v) :
    p.ComesTo l v.custody (p.rigging l₀) v.wired v.phase := by
  induction h with
  | start => rfl
  | step move hbefore hstep ih =>
    obtain ⟨rfl, feed, s, own, hflow, hstands⟩ := hbefore.sound
    rcases Invocation.step_cases hstep with ⟨-, hacts⟩ | ⟨i, w, -, hmoved, rfl, rfl⟩
    · exact ih.caller hacts
    · exact ih.thread hflow hstands hmoved

/-- When all stages are wired, this is what the wiring comes to. -/
theorem Reaches.rigging_of_wired {schedule : List Move} {deeds : List Deed} {w : Wired α ω}
    (h : p.Reaches l₀ schedule deeds l ⟨p, c, w, .wiring .nil⟩) :
    p.rigging l₀ = .ready ⟨l, c, w⟩ :=
  h.comesTo.symm

/-- When the thread of the next stage cannot be started, the wiring comes to nothing. -/
theorem Reaches.rigging_of_stopped {γ : Type} {schedule : List Move} {deeds : List Deed}
    {s : Stage β γ} {out : Channel γ} {rest : Chain γ ω}
    (h : p.Reaches l₀ schedule deeds l ⟨p, c, w, .spawning s out rest⟩)
    (hfails : p.host (w.size + 1) (p.tuning.threadName s.name) ≠ .started) :
    p.rigging l₀ = .stopped ⟨l, c, w⟩ s.name
      (p.host (w.size + 1) (p.tuning.threadName s.name)) := by
  have hcomes := h.comesTo
  rw [ComesTo, Rig.launch] at hcomes
  rw [← hcomes]
  split
  · exact absurd ‹_› hfails
  · rfl

end Plan

/-- **A blueprint wires what the caller of a run wires**, if it was built like the pipeline. -/
theorem Build.rig_eq_rigging {b : Build α ω} {p : Pipeline α ω} {q : Blueprint α ω}
    (hpipeline : b.pipeline? = .ok p) (hblueprint : b.blueprint? = .ok q) (input : α)
    (host : Nat → String → SpawnOutcome) (l₀ : Ledger) :
    q.rig host l₀ = (Plan.mk p input host).rigging l₀ := by
  obtain ⟨hchain, htuning⟩ := of_pipeline? hpipeline
  obtain ⟨-, hoptions, hwire⟩ := of_blueprint? hblueprint
  have hsame : q.options = (Plan.mk p input host).tuning.options :=
    hoptions.trans (Tuning.options_of_ofOptions? htuning).symm
  rw [Blueprint.rig, hsame, Custody.create?_options]
  simp only
  rw [hwire _ _ _ rfl, ← hchain]
  rfl

end Relay

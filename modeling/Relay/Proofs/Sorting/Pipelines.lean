import Relay.Proofs.Invocation.Outcome
import Relay.Proofs.Sorting.Stable
import Relay.SortPipeline

/-!
# What the sorting pipelines return

`Pipeline.Returns` says that all runs of a pipeline on an input end, and in the same way, by
returning a value.

* `Pipeline.returnsWith_of_eval`: a pipeline returns what its stages make of the input;
* `sort_eq_of_perm`: the order in which integers are given does not matter;
* `sorting_pipelines_agree`: the three pipelines that sort return what they should on every list.
-/

namespace Relay

variable {α ω : Type}

theorem Chain.outcome_of_ok {threadName : String → String} {c : Chain α ω} {input : α} {value : ω}
    (h : c.eval threadName input = .ok value) : c.outcome threadName input = .returned value := by
  rw [outcome, h]

namespace Pipeline

/-- Where all threads can be started and no thread of others is live, no run on the input goes on
for ever, every run can be brought to its end, and this is the return of the value. -/
def Returns (p : Pipeline α ω) (input : α) (value : ω) : Prop :=
  ∀ (host : Nat → String → SpawnOutcome) (l₀ : Ledger), (Plan.mk p input host).Starts →
    l₀.liveThreads = 0 → ∀ schedule deeds l v,
      (Plan.mk p input host).Reaches l₀ schedule deeds l v →
        schedule.length ≤ 9 * p.length + 11 ∧
        (∀ e, v.ending? = some e → e = .returned value) ∧
        ∃ schedule' deeds' l' v',
          (Plan.mk p input host).Reaches l₀ (schedule ++ schedule') deeds' l' v' ∧
            v'.ending? = some (.returned value)

/-- The pipeline takes some options, and then returns the value. -/
def ReturnsWith (p : Pipeline α ω) (o : PipelineOptions) (input : α) (value : ω) : Prop :=
  ∃ q, p.withOptions o = .ok q ∧ q.Returns input value

variable {p : Pipeline α ω} {input : α} {value : ω} {o : PipelineOptions}

/-- A pipeline returns what its stages make of the input. -/
theorem returns_of_eval (h : p.chain.eval p.tuning.threadName input = .ok value) :
    p.Returns input value := by
  intro host l₀ hstarts hquiet schedule deeds l v hreached
  have houtcome : p.chain.outcome p.tuning.threadName input = .returned value :=
    Chain.outcome_of_ok h
  refine ⟨?_, fun e hended => ?_, ?_⟩
  · have hbound := hreached.length_le
    have hstart : (Plan.mk p input host).start.stepsLeft = 9 * p.length + 11 := Nat.zero_add _
    omega
  · exact (hreached.ended_outcome hstarts hquiet hended).1.trans houtcome
  · obtain ⟨schedule', deeds', l', v', hlater, hdone⟩ := hreached.exists_ended
    obtain ⟨e, hended⟩ := Option.isSome_iff_exists.mp hdone
    refine ⟨schedule', _, l', v', hlater, ?_⟩
    rw [hended, (hlater.ended_outcome hstarts hquiet hended).1]
    exact congrArg some houtcome

theorem withOptions_of_capacity (p : Pipeline α ω)
    (h : 1 ≤ o.capacity ∧ o.capacity ≤ maxCapacity) : p.withOptions o =
      .ok { p with tuning := ⟨⟨o.capacity, h.1, h.2⟩, o.threadPrefix, o.stackSize⟩ } := by
  rw [withOptions, Tuning.ofOptions?, Capacity.ofNat?, dif_pos h]

theorem withOptions_of_not_capacity (p : Pipeline α ω)
    (h : ¬ (1 ≤ o.capacity ∧ o.capacity ≤ maxCapacity)) :
    p.withOptions o = .error (.invalidCapacity o.capacity) := by
  rw [withOptions, Tuning.ofOptions?, Capacity.ofNat?, dif_neg h]

/-- With options that are of no use nothing is run. -/
theorem runWith_of_error {p : Pipeline α ω} {fault : Fault} (h : p.withOptions o = .error fault)
    (input : α) : p.runWith input o =
      ⟨some (.failed ⟨[], fault⟩), .empty, [], List.replicate p.length 0⟩ := by
  rw [runWith, h]

/-- With any capacity that a channel can have, a pipeline returns what its stages make of the input,
if that does not depend on where they run. -/
theorem returnsWith_of_eval (hcapacity : 1 ≤ o.capacity ∧ o.capacity ≤ maxCapacity)
    (h : ∀ threadName, p.chain.eval threadName input = .ok value) : p.ReturnsWith o input value :=
  ⟨_, p.withOptions_of_capacity hcapacity, returns_of_eval (h _)⟩

end Pipeline

/-! ## Integers in order -/

theorem IntKind.Value.le_totalPreorder (k : IntKind) :
    TotalPreorder (IntKind.Value.le : k.Value → k.Value → Bool) where
  total a b := by simpa [IntKind.Value.le] using Int.le_total a.val b.val
  trans a b c hab hbc := by
    simp only [IntKind.Value.le, decide_eq_true_eq] at hab hbc ⊢
    exact Int.le_trans hab hbc

/-- There is one way to put integers in order. -/
theorem eq_of_sorted {l m : List Int32Value} (hperm : l.Perm m)
    (hl : l.Pairwise fun a b => a.val ≤ b.val) (hm : m.Pairwise fun a b => a.val ≤ b.val) :
    l = m :=
  hperm.eq_of_pairwise (fun _ _ _ _ hab hba => Subtype.ext (Int.le_antisymm hab hba)) hl hm

theorem sort_perm (l : List Int32Value) : (sort IntKind.Value.le l).Perm l :=
  (isStableSort_sort (IntKind.Value.le_totalPreorder .int) l).perm

theorem sort_sorted (l : List Int32Value) :
    (sort IntKind.Value.le l).Pairwise fun a b => a.val ≤ b.val :=
  (isStableSort_sort (IntKind.Value.le_totalPreorder .int) l).ordered.imp of_decide_eq_true

/-- Integers are sorted into the same list in whatever order they are given. -/
theorem sort_eq_of_perm {l m : List Int32Value} (h : l.Perm m) :
    sort IntKind.Value.le l = sort IntKind.Value.le m := by
  refine (sort_eq_sort_iff_perm (IntKind.Value.le_totalPreorder .int) fun a b hab hba => ?_).mpr h
  exact Subtype.ext (Int.le_antisymm (of_decide_eq_true hab) (of_decide_eq_true hba))

/-! ## The pipelines that sort -/

variable (threadName : String → String) (l : List Int32Value)

theorem eval_sortPipeline :
    sortPipeline.chain.eval threadName l = .ok (sort IntKind.Value.le l) :=
  rfl

theorem eval_mergeSortPipeline :
    mergeSortPipeline.chain.eval threadName l = .ok (sort IntKind.Value.le l) := by
  have hhalves : halve? l = some (halve l) := halve?_eq_some l
  rw [← merge_sortHalves_halve (IntKind.Value.le_totalPreorder .int) l]
  simp [mergeSortPipeline, Pipeline.stage, Pipeline.new, Chain.snoc, Chain.eval, Stage.pure,
    hhalves]

theorem eval_checkedSortPipeline (limit : Nat) :
    (checkedSortPipeline limit).chain.eval threadName l =
      .ok (if l.length ≤ limit then .inr (sort IntKind.Value.le l) else .inl ()) := by
  have hchecked : checkedSort IntKind.Value.le limit l =
      if l.length ≤ limit then .inr (sort IntKind.Value.le l) else .inl () := by
    simp only [checkedSort, ← Nat.not_le, ite_not]
  exact congrArg Except.ok hchecked

/-- **The sorting pipelines agree and never fail.** With any options of which the capacity is one
that a channel can have, the pipeline of one stage and that of three return the sorted list, and the
one that checks the length returns it or the refusal. No list makes a stage panic: every list can be
split in the middle, and only the empty one is split into nothing. -/
theorem sorting_pipelines_agree (o : PipelineOptions)
    (hcapacity : 1 ≤ o.capacity ∧ o.capacity ≤ 65536) (limit : Nat) (l : List Int32Value) :
    ((sort IntKind.Value.le l).Perm l ∧
      (sort IntKind.Value.le l).Pairwise fun a b => a.val ≤ b.val) ∧
    (sortPipeline.ReturnsWith o l (sort IntKind.Value.le l) ∧
      mergeSortPipeline.ReturnsWith o l (sort IntKind.Value.le l) ∧
      (checkedSortPipeline limit).ReturnsWith o l
        (if l.length ≤ limit then .inr (sort IntKind.Value.le l) else .inl ())) ∧
    ∃ halves, halve? l = some halves ∧ (halves = .inl (.inl ()) ↔ l = []) := by
  refine ⟨⟨sort_perm l, sort_sorted l⟩, ⟨?_, ?_, ?_⟩, halve l, ?_, ?_⟩
  · exact Pipeline.returnsWith_of_eval hcapacity fun threadName => eval_sortPipeline threadName l
  · exact Pipeline.returnsWith_of_eval hcapacity fun threadName =>
      eval_mergeSortPipeline threadName l
  · exact Pipeline.returnsWith_of_eval hcapacity fun threadName =>
      eval_checkedSortPipeline threadName l limit
  · exact halve?_eq_some l
  · match l with
    | [] | [_] | _ :: _ :: _ => simp [halve]

/-- Three integers, one more than the third pipeline takes, through channels of capacity two. -/
theorem sorting_pipelines_agree_specimen :
    let l : List Int32Value := [⟨3, by decide⟩, ⟨-1, by decide⟩, ⟨2, by decide⟩]
    let sorted : List Int32Value := [⟨-1, by decide⟩, ⟨2, by decide⟩, ⟨3, by decide⟩]
    let o : PipelineOptions := { capacity := 2 }
    (1 ≤ o.capacity ∧ o.capacity ≤ 65536) ∧ sortPipeline.ReturnsWith o l sorted ∧
      mergeSortPipeline.ReturnsWith o l sorted ∧
      (checkedSortPipeline 2).ReturnsWith o l (.inl ()) := by
  intro l sorted o
  have hcapacity : 1 ≤ o.capacity ∧ o.capacity ≤ 65536 := by decide
  have hsame : sort IntKind.Value.le l = sorted :=
    eq_of_sorted ((sort_perm l).trans (by decide)) (sort_sorted l) (by decide)
  obtain ⟨-, ⟨hwhole, hhalves, hchecked⟩, -⟩ := sorting_pipelines_agree o hcapacity 2 l
  rw [hsame] at hwhole hhalves hchecked
  exact ⟨hcapacity, hwhole, hhalves, hchecked⟩

end Relay

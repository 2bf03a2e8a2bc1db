import Relay.Proofs.Sorting.Pipelines
import Relay.Settings.Basic

/-!
# The run that the settings choose

The settings choose a pipeline and the capacity of its channels (`Settings.run`). What comes of it
is known before:

* `Settings.returnsWith_of_capacity`, `Settings.run_of_capacity`: the sorted list is returned;
* `Settings.report_of_not_capacity`: a run that no channel can be made for does nothing.
-/

namespace Relay.Settings

variable {s : Settings}

/-- A capacity that a channel can have. -/
def CapacityInRange (s : Settings) : Prop :=
  1 ≤ s.capacity ∧ s.capacity ≤ 65536

theorem eval_pipeline (m : SortMode) (threadName : String → String) (l : List Int32Value) :
    m.pipeline.chain.eval threadName l = .ok (sort IntKind.Value.le l) := by
  cases m with
  | sort => exact eval_sortPipeline threadName l
  | merge => exact eval_mergeSortPipeline threadName l

/-- Whatever the schedule, the pipeline that the settings choose returns the sorted list. -/
theorem returnsWith_of_capacity (h : s.CapacityInRange) (l : List Int32Value) :
    s.mode.pipeline.ReturnsWith s.pipelineOptions l (sort IntKind.Value.le l) :=
  Pipeline.returnsWith_of_eval h fun threadName => eval_pipeline s.mode threadName l

/-- The names of the threads that sort can be given to threads. -/
theorem not_null_of_mem (m : SortMode) {name : String} (h : name ∈ m.pipeline.stageNames) :
    (programName ++ "-" ++ name).toList.contains '\x00' = false := by
  have hall : ∀ m : SortMode, ∀ name ∈ m.pipeline.stageNames,
      (programName ++ "-" ++ name).toList.contains '\x00' = false := by
    intro m
    cases m <;> decide +kernel
  exact hall m name h

theorem run_of_capacity (h : s.CapacityInRange) (l : List Int32Value) :
    (s.run l).ending = some (.returned (sort IntKind.Value.le l)) := by
  let tuning : Tuning := ⟨⟨s.capacity, h.1, h.2⟩, programName, none⟩
  let p : Pipeline (List Int32Value) (List Int32Value) := { s.mode.pipeline with tuning }
  have hoptions : s.mode.pipeline.withOptions s.pipelineOptions = .ok p :=
    Pipeline.withOptions_of_capacity (o := s.pipelineOptions) s.mode.pipeline h
  have hstarts : (Plan.mk p l p.host).Starts := by
    intro i _ name hname
    have hplain := not_null_of_mem s.mode (List.mem_of_getElem? hname)
    change tuning.spawnOutcome (tuning.threadName name) = .started
    rw [Tuning.spawnOutcome, Tuning.threadName, hplain]
    rfl
  have hending : (s.run l).ending = (p.run l).ending := by
    rw [run, Pipeline.runWith, hoptions]
  rw [hending, p.run_ending l .empty p.host, Plan.verdict_of_starts hstarts rfl]
  exact congrArg some (Chain.outcome_of_ok (eval_pipeline s.mode _ l))

/-- A run with a capacity that no channel can have does nothing at all: it creates no channel and
starts no thread. -/
theorem report_of_not_capacity (h : ¬ s.CapacityInRange) (l : List Int32Value) :
    s.run l =
      { ending := some (.failed ⟨[], .invalidCapacity s.capacity⟩)
        ledger := .empty
        log := [.running s.mode.pipeline.stageNames s.capacity]
        calls := List.replicate s.mode.pipeline.length 0 } := by
  have hrefused : s.mode.pipeline.withOptions s.pipelineOptions =
      .error (.invalidCapacity s.capacity) :=
    s.mode.pipeline.withOptions_of_not_capacity h
  rw [run, Pipeline.runWith_of_error hrefused]

theorem run_of_not_capacity (h : ¬ s.CapacityInRange) (l : List Int32Value) :
    (s.run l).ending = some (.failed ⟨[], .invalidCapacity s.capacity⟩) := by
  rw [report_of_not_capacity h]

end Relay.Settings

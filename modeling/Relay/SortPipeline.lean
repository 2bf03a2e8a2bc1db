import Relay.Invocation.Run
import Relay.Sorting

/-!
# Pipelines that sort

The sort of a list of 32-bit integers as a pipeline: in one stage, or in three that split the
list, sort its halves and merge them. `checkedSortPipeline` refuses a list that is too long; the
refusal is a result like any other.
-/

namespace Relay

/-- Sorts in one stage. -/
def sortPipeline : Pipeline (List Int32Value) (List Int32Value) :=
  Pipeline.new.stage (.pure "sort" (sort IntKind.Value.le))

/-- Splits, sorts the halves, and merges. -/
def mergeSortPipeline : Pipeline (List Int32Value) (List Int32Value) :=
  ((Pipeline.new.stage ⟨"halve", fun _ => halve?⟩).stage
    (.pure "sort_halves" (sortHalves IntKind.Value.le))).stage
    (.pure "merge" (merge IntKind.Value.le))

/-- Sorts in one stage a list of at most `limit` integers, and refuses a longer one. -/
def checkedSortPipeline (limit : Nat) :
    Pipeline (List Int32Value) (Checked (List Int32Value)) :=
  Pipeline.new.stage (.pure "checked_sort" (checkedSort IntKind.Value.le limit))

/-- Sorts a list on a stage thread. -/
def runSort (l : List Int32Value) : Report (List Int32Value) :=
  sortPipeline.run l

end Relay

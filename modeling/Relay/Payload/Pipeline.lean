import Relay.Chain
import Relay.Payload.Function

/-!
# Pipelines over payloads

A named function on payloads is a stage, and a list of them is a pipeline. Whatever makes the
function fail makes the stage panic.
-/

namespace Relay

/-- The stage that applies a function. -/
def Function.stage (name : String) (f : Function) : Stage Payload Payload :=
  ⟨name, fun thread p => (f.apply thread p).toOption⟩

/-- The pipeline with a stage for each of some named functions added at its end. -/
def Pipeline.withFunctions (p : Pipeline Payload Payload) (fs : List (String × Function)) :
    Pipeline Payload Payload :=
  fs.foldl (fun p (name, f) => p.stage (f.stage name)) p

end Relay

import StepWeave.Command.Arguments
import StepWeave.Context.Keys
import StepWeave.Display
import StepWeave.Execution
import StepWeave.Json
import StepWeave.ValueType

/-!
# The outcome of a run

What the `run` command tells about an execution, as one JSON object.
-/

namespace StepWeave.Command

/-- The context that a run starts with: the layer, then the given values. -/
def RunOptions.context (o : RunOptions) : Context :=
  let start : Context :=
    match o.layer with
    | some layer => Context.empty.putText Context.Keys.layerId layer
    | none => .empty
  o.vars.foldl (fun c v => c.putText v.1 v.2) start

def RunOptions.execute (o : RunOptions) (r : Registry) (id : ExecutionId) (clock : Clock) :
    Execution String :=
  r.execute .string o.pipeline o.layer id clock ⟨o.context, o.initial⟩

structure Outcome where
  pipeline : String
  layer : Option String
  executionId : Option ExecutionId := none
  status : Option Status := none
  completed : Nat := 0
  duration : Option Int := none
  finishedEarly : Bool
  context : Keyed String
  response : String
  error : Option String
deriving DecidableEq

namespace Outcome

def note (o : Outcome) : Event → Outcome
  | .pipelineStarted id .. => { o with executionId := some id }
  | .pipelineCompleted id status completed duration =>
    if status.isTerminal then
      { o with executionId := some id, status := some status, completed, duration }
    else o
  | _ => o

def of (o : RunOptions) (e : Execution String) : Outcome :=
  e.events.foldl note {
    pipeline := o.pipeline
    layer := o.layer
    finishedEarly := e.work.context.finished
    context := e.work.context.typeNames
    response := e.work.response
    error := e.failure.map Failure.message }

def toJson (o : Outcome) : Json :=
  .fields [
    ("pipeline", .string o.pipeline),
    ("layer", .ofOption o.layer),
    ("execution_id", .ofOption (o.executionId.map (·.text))),
    ("status", .ofOption (o.status.map Status.name)),
    ("completed_steps", .number o.completed),
    ("duration_ms", o.duration.elim .null .number),
    ("finished_early", .bool o.finishedEarly),
    ("context", .object (o.context.map Json.string).entries),
    ("response", .string o.response),
    ("error", .ofOption o.error)]

end Outcome

end StepWeave.Command

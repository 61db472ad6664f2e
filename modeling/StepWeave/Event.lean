import StepWeave.ExecutionId
import StepWeave.Interceptor
import StepWeave.Progress

/-!
# Events

The events that an execution reports, in order, to every handler.
-/

namespace StepWeave

inductive Event where
  | pipelineStarted (id : ExecutionId) (pipeline : String) (layer : Option String) (total : Nat)
  | stepStarted (step : String)
  | stepCompleted (step : String)
  /-- Carries the text of the failure. -/
  | stepFailed (step error : String)
  | interceptorEntered (interceptor : String) (mode : Mode)
  /-- An interceptor swallowed the failure with the given text. -/
  | failureRecovered (interceptor error : String) (recovery : Recovery)
  /-- A step ended the pipeline by the context's flag. -/
  | pipelineStopped (completed : Nat)
  /-- The duration in milliseconds is absent when nothing ran. -/
  | pipelineCompleted (id : ExecutionId) (status : Status) (completed : Nat)
      (duration : Option Int)
deriving DecidableEq, Repr

namespace Event

/-- The execution that an event names. -/
def executionId? : Event → Option ExecutionId
  | pipelineStarted id .. => some id
  | pipelineCompleted id .. => some id
  | _ => none

/-- Each event as every one of `handlers` handlers receives it: handlers are
called in the order in which they were added, one event after the other. -/
def deliver (handlers : Nat) (events : List Event) : List (Nat × Event) :=
  events.flatMap fun event => (List.range handlers).map (·, event)

end Event

end StepWeave

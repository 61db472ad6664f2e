/-!
# Failures of pipelines

`Failure` lists what can go wrong when a pipeline is registered, looked up or
run, and `Defect` the reasons for which a definition cannot be run.  The wording
is in `Failure.message` and `Defect.message` alone.
-/

namespace StepWeave

/-- Why a definition cannot be run. -/
inductive Defect where
  /-- Two base steps share an id. -/
  | duplicateStep (id : String)
  /-- An extension names a hook that no base step answers to. -/
  | unmatchedHook (hook : String)
  /-- Two hooks replace the same step. -/
  | contestedStep (first second step : String)
  /-- An interceptor starts at a step that is not in the sequence. -/
  | unknownStart (interceptor step : String)
  /-- An interceptor ends at a step that does not come at or after its start. -/
  | misplacedEnd (interceptor step : String)
  /-- Two interceptors wrap a common step. -/
  | overlap (first second : String)
  /-- A reason given by a step in its own words. -/
  | stated (reason : String)
deriving DecidableEq, Repr

/-- The reason as shown to the user. -/
def Defect.message : Defect → String
  | duplicateStep id => s!"duplicate step id '{id}'"
  | unmatchedHook hook => s!"extension hook '{hook}' matches no step"
  | contestedStep first second step => s!"hooks '{first}' and '{second}' both replace step '{step}'"
  | unknownStart interceptor step => s!"interceptor '{interceptor}' starts at unknown step '{step}'"
  | misplacedEnd interceptor step =>
    s!"interceptor '{interceptor}' ends at step '{step}', which does not follow its start"
  | overlap first second => s!"interceptors '{first}' and '{second}' overlap"
  | stated reason => reason

/-- What can go wrong with a pipeline. -/
inductive Failure where
  /-- No variant of the pipeline applies to the layer. -/
  | unknownPipeline (name : String) (layer : Option String)
  /-- A required context entry is absent. -/
  | missingValue (key : String)
  /-- A context entry has another type than the one asked for. -/
  | wrongValueType (key expected actual : String)
  /-- The pipeline was registered for another response type. -/
  | wrongResponseType (name registered requested : String)
  /-- The pipeline has a variant for the layer already. -/
  | duplicatePipeline (name : String) (layer : Option String)
  /-- The definition cannot be run. -/
  | invalidPipeline (name : String) (layer : Option String) (defect : Defect)
  /-- A step gave up with a message. -/
  | stepFailed (step message : String)
  /-- A step refused the operation to a user. -/
  | forbidden (code user : String)
  /-- Any other failure of a step, with the contexts put around it, innermost first. -/
  | other (message : String) (contexts : List String)
deriving DecidableEq, Repr

/-- A layer as messages show it; without a layer the default variant is meant. -/
def layerText (layer : Option String) : String := layer.getD "<default>"

/-- The failure as shown to the user. -/
def Failure.message : Failure → String
  | unknownPipeline name layer => s!"Unknown pipeline '{name}' (layer: {layerText layer})"
  | missingValue key => s!"Context value '{key}' is missing"
  | wrongValueType key expected actual =>
    s!"Context value '{key}' has type {actual}, expected {expected}"
  | wrongResponseType name registered requested =>
    s!"Pipeline '{name}' is registered for response type {registered}, requested {requested}"
  | duplicatePipeline name layer =>
    s!"Pipeline '{name}' is already registered for layer {layerText layer}"
  | invalidPipeline name layer defect =>
    s!"Invalid pipeline '{name}' (layer: {layerText layer}): {defect.message}"
  | stepFailed step message => s!"Step '{step}' failed: {message}"
  | forbidden code user => s!"Operation not allowed ({code}) for user '{user}'"
  | other message contexts => contexts.getLast?.getD message

end StepWeave

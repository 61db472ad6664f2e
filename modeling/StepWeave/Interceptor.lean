import StepWeave.Step

/-!
# Interceptors

An interceptor wraps the steps from its start to its end.  It decides before
them what is to run, acts after them, and may swallow the failure of one of
them.
-/

namespace StepWeave

/-- What an interceptor lets run. -/
inductive Mode where
  /-- The wrapped steps and the action after them. -/
  | all
  /-- The wrapped steps alone. -/
  | stepsOnly
  /-- The action after the steps alone. -/
  | afterOnly
  /-- Neither. -/
  | neither
deriving DecidableEq, Repr, Inhabited

namespace Mode

def runsSteps : Mode → Bool
  | all | stepsOnly => true
  | afterOnly | neither => false

def runsAfter : Mode → Bool
  | all | afterOnly => true
  | stepsOnly | neither => false

end Mode

/-- How a run goes on once an interceptor has swallowed a failure.  The rest of
the wrapped steps is left out either way. -/
inductive Recovery where
  /-- Go on with the action after the steps, if the mode runs it. -/
  | resume
  /-- Go on without it. -/
  | skipAfter
deriving DecidableEq, Repr, Inhabited

variable [Types]

/-- Advice around a contiguous range of steps.  The defaults wrap the whole
pipeline, let everything run and hand failures on. -/
structure Interceptor (R : Type) where
  id : String
  /-- Id of the first wrapped step; without it the first step of the pipeline. -/
  start : Option String := none
  /-- Id of the last wrapped step; without it the last step of the pipeline. -/
  stop : Option String := none
  /-- Called once before the first wrapped step. -/
  before : Action Context Mode := fun c => (.ok .all, c)
  /-- Called once after the last wrapped step. -/
  after : Action (Workspace R) Unit := fun w => (.ok (), w)
  /-- Called with the failure of a wrapped step; failing here aborts the run. -/
  onThrow : Failure → Action Context Recovery := fun failure c => (.error failure, c)

end StepWeave

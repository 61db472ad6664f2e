import StepWeave.Context

/-!
# Steps

A step is an id and an action on a workspace, which is the context together with
the response.  An action that fails still hands back the workspace as it left
it: nothing is rolled back.
-/

namespace StepWeave

variable [Types]

/-- A computation on a state that answers or fails and leaves a state either way. -/
abbrev Action (σ α : Type) : Type := σ → Except Failure α × σ

/-- What the steps of a run work on. -/
structure Workspace (R : Type) where
  context : Context
  response : R

/-- One unit of work of a pipeline over responses of type `R`. -/
structure Step (R : Type) where
  /-- Unique among the base steps of a variant. -/
  id : String
  /-- How long the step holds the caller up, in milliseconds. -/
  pause : Nat := 0
  act : Action (Workspace R) Unit

namespace Step

variable {R : Type}

def hook (id : String) : Step R where
  id
  act w := (.ok (), w)

end Step

end StepWeave

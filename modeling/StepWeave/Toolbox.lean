import StepWeave.Catalog
import StepWeave.LoadError
import StepWeave.TextInterceptor
import StepWeave.TextStep

/-!
# Toolboxes

A toolbox is the part of a document that declares text steps and interceptors.
-/

namespace StepWeave

structure Toolbox where
  steps : List TextStep := []
  interceptors : List TextInterceptor := []
deriving DecidableEq, Repr

namespace Toolbox

def checkSteps (seen : List String) : List TextStep → Except LoadError.Cause Unit
  | [] => .ok ()
  | s :: rest =>
    if s.id ∈ seen then .error (.duplicateStep s.id) else checkSteps (s.id :: seen) rest

def lacksMessage (i : TextInterceptor) : Bool :=
  match i.kind with
  | .recover .translate none _ => true
  | _ => false

/-- The first interceptor whose id was used before or which lacks its message. -/
def checkInterceptors (seen : List String) : List TextInterceptor → Except LoadError.Cause Unit
  | [] => .ok ()
  | i :: rest =>
    if i.id ∈ seen then .error (.duplicateInterceptor i.id)
    else if lacksMessage i then .error (.missingMessage i.id)
    else checkInterceptors (i.id :: seen) rest

/-- Ids have to be distinct among the steps and among the interceptors, and an
interceptor that translates failures has to have a message. -/
def check (t : Toolbox) : Except LoadError.Cause Unit :=
  match checkSteps [] t.steps with
  | .error cause => .error cause
  | .ok () => checkInterceptors [] t.interceptors

/-- The declared steps and interceptors, ready to be referred to. -/
def catalog (t : Toolbox) : Catalog String :=
  .ofLists (t.steps.map TextStep.toStep) (t.interceptors.map TextInterceptor.toInterceptor)

end Toolbox

end StepWeave

import StepWeave.Registry
import StepWeave.Run

/-!
# Executions

An execution finds a variant, plans it, runs the plan on a workspace and reports
the events around the run.  Its identity and the readings of the clock are given by
the caller.
-/

namespace StepWeave

variable [Types]

/-- What the clock shows when an execution starts and when it ends. -/
structure Clock where
  start : Instant
  stop : Instant
deriving DecidableEq, Repr, Inhabited

namespace Clock

/-- A clock that stands still. -/
def still (time : Instant) : Clock := ⟨time, time⟩

instance : Coe Instant Clock := ⟨still⟩

end Clock

/-- What came of an execution. -/
structure Execution (R : Type) where
  /-- The failure that ended it, if one did. -/
  failure : Option Failure
  work : Workspace R
  log : List (Record R)

namespace Execution

variable {R : Type}

def events (e : Execution R) : List Event := e.log.filterMap Record.event?

def calls (e : Execution R) : List (Call R) := e.log.filterMap Record.call?

def result (e : Execution R) : Except Failure Unit :=
  match e.failure with
  | some failure => .error failure
  | none => .ok ()

/-- The time for which steps held the execution up, in milliseconds. -/
def pause (e : Execution R) : Nat := Call.totalPause e.calls

def aborted (id : ExecutionId) (clock : Clock) (progress : Progress) (failure : Failure)
    (work : Workspace R) : Execution R :=
  let progress := progress.fail clock.stop
  { failure := some failure
    work
    log := [.event (.pipelineCompleted id progress.status 0 progress.durationMillis)] }

/-- Plan a variant without a delegate and run it. -/
def run (id : ExecutionId) (clock : Clock) (progress : Progress) (v : Variant R)
    (work : Workspace R) : Execution R :=
  match Plan.build v with
  | .error failure => aborted id clock progress failure work
  | .ok plan =>
    let progress := (progress.resolve plan.total).start clock.start
    let started := Event.pipelineStarted id progress.pipeline progress.layer progress.total
    let walk := plan.run work
    let progress := { progress with completed := progress.completed + walk.completed }
    let progress :=
      match walk.failure with
      | none => progress.complete clock.stop
      | some _ => progress.fail clock.stop
    let ended :=
      Event.pipelineCompleted id progress.status progress.completed progress.durationMillis
    { failure := walk.failure
      work := walk.work
      log := .event started :: walk.log ++ [.event ended] }

end Execution

/-- Execute a variant that was looked up or made before.  A delegate is followed
one level, as on registration. -/
def Variant.execute {R : Type} (v : Variant R) (id : ExecutionId) (clock : Clock)
    (work : Workspace R) : Execution R :=
  Execution.run id clock (.new v.name v.layer) v.flatten work

def Registry.execute (r : Registry) (type : TypeTag) (name : String) (layer : Option String)
    (id : ExecutionId) (clock : Clock) (work : Workspace type.Carrier) :
    Execution type.Carrier :=
  match r.resolve type name layer with
  | .ok v => Execution.run id clock (.new name layer) v work
  | .error failure => Execution.aborted id clock (.new name layer) failure work

end StepWeave

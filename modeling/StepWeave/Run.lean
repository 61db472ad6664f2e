import StepWeave.Event
import StepWeave.Plan

/-!
# Running a plan

Running a plan calls the steps and interceptors of its segments in order, until
one of them fails for good or the context is marked finished.  A run is a value:
its result, the workspace as the last call left it, and a log in which the calls
stand between the events they give rise to.
-/

namespace StepWeave

variable [Types]

/-- A call of a step or of an interceptor, with what it answered. -/
inductive Callback where
  | step (position : Nat) (id : String) (answer : Except Failure Unit)
  | before (interceptor : String) (answer : Except Failure Mode)
  | onThrow (interceptor : String) (failure : Failure) (answer : Except Failure Recovery)
  | after (interceptor : String) (answer : Except Failure Unit)

/-- The failure that a call answered, if it did. -/
def Callback.failure? : Callback → Option Failure
  | step _ _ (.error failure) => some failure
  | before _ (.error failure) => some failure
  | onThrow _ _ (.error failure) => some failure
  | after _ (.error failure) => some failure
  | _ => none

/-- A call made in a run, with the workspace it got and the one it left. -/
structure Call (R : Type) where
  segment : Nat
  callback : Callback
  entry : Workspace R
  exit : Workspace R
  /-- How long the call held the run up, in milliseconds. -/
  pause : Nat := 0

def Call.totalPause {R : Type} (calls : List (Call R)) : Nat :=
  calls.foldr (fun c total => c.pause + total) 0

/-- A line of a run's log. -/
inductive Record (R : Type) where
  | call (call : Call R)
  | event (event : Event)

namespace Record

variable {R : Type}

def event? : Record R → Option Event
  | event e => some e
  | call _ => none

def call? : Record R → Option (Call R)
  | call c => some c
  | event _ => none

end Record

/-- What came of running a part of a plan. -/
structure Walk (R : Type) where
  /-- The failure that ended the run, if one did. -/
  failure : Option Failure := none
  work : Workspace R
  completed : Nat := 0
  log : List (Record R) := []

namespace Walk

variable {R : Type}

def events (w : Walk R) : List Event := w.log.filterMap Record.event?

def calls (w : Walk R) : List (Call R) := w.log.filterMap Record.call?

/-- The time for which steps held the run up, in milliseconds. -/
def pause (w : Walk R) : Nat := Call.totalPause w.calls

def logging (records : List (Record R)) (w : Walk R) : Walk R :=
  { w with log := records ++ w.log }

/-- The walk that `later` went on with.  A failure of the first part is over. -/
def append (w later : Walk R) : Walk R :=
  { later with completed := w.completed + later.completed, log := w.log ++ later.log }

/-- Go on with `next` unless the walk has failed. -/
def andThen (w : Walk R) (next : Workspace R → Walk R) : Walk R :=
  match w.failure with
  | some _ => w
  | none => w.append (next w.work)

end Walk

section

variable {R : Type}

def Step.walk (segment position : Nat) (s : Step R) (work : Workspace R) : Walk R :=
  let (answer, exit) := s.act work
  let call := Call.mk segment (.step position s.id answer) work exit s.pause
  let started := Record.event (.stepStarted s.id)
  match answer with
  | .ok () =>
    { work := exit
      completed := 1
      log := [started, .call call, .event (.stepCompleted s.id)] }
  | .error failure =>
    { failure := some failure
      work := exit
      log := [started, .call call, .event (.stepFailed s.id failure.message)] }

/-- Run the parts of a list, which are counted from `index` on, up to the first that
fails, or until the context is finished. -/
def walkEach {α : Type} (go : Nat → α → Workspace R → Walk R) (index : Nat) :
    List α → Workspace R → Walk R
  | [], work => { work }
  | part :: rest, work =>
    if work.context.finished then { work }
    else (go index part work).andThen (walkEach go (index + 1) rest)

def walkRange (segment : Nat) (steps : List (Step R)) (mode : Mode) (work : Workspace R) :
    Walk R :=
  if mode.runsSteps then walkEach (Step.walk segment) 0 steps work else { work }

namespace Interceptor

def walkAfter (segment : Nat) (i : Interceptor R) (work : Workspace R) : Walk R :=
  let (answer, exit) := i.after work
  let call := Call.mk segment (.after i.id answer) work exit 0
  match answer with
  | .ok () => { work := exit, log := [.call call] }
  | .error failure => { failure := some failure, work := exit, log := [.call call] }

/-- Hand the failure of a wrapped step to the interceptor.  If it recovers, the
action after the steps runs unless the recovery or the mode leaves it out. -/
def walkThrow (segment : Nat) (i : Interceptor R) (mode : Mode) (failure : Failure)
    (work : Workspace R) : Walk R :=
  let (answer, context) := i.onThrow failure work.context
  let exit := { work with context }
  let call := Call.mk segment (.onThrow i.id failure answer) work exit 0
  match answer with
  | .error failure => { failure := some failure, work := exit, log := [.call call] }
  | .ok recovery =>
    let recovered := Record.event (.failureRecovered i.id failure.message recovery)
    let rest :=
      if mode.runsAfter && recovery = .resume then i.walkAfter segment exit
      else { work := exit }
    rest.logging [.call call, recovered]

/-- Run what the mode lets run of the wrapped steps and of the action after them. -/
def walkMode (segment : Nat) (i : Interceptor R) (steps : List (Step R)) (mode : Mode)
    (work : Workspace R) : Walk R :=
  let range := walkRange segment steps mode work
  match range.failure with
  | some failure => range.append (i.walkThrow segment mode failure range.work)
  | none => if mode.runsAfter then range.append (i.walkAfter segment range.work) else range

def walk (segment : Nat) (i : Interceptor R) (steps : List (Step R)) (work : Workspace R) :
    Walk R :=
  let (answer, context) := i.before work.context
  let exit := { work with context }
  let call := Call.mk segment (.before i.id answer) work exit 0
  match answer with
  | .error failure => { failure := some failure, work := exit, log := [.call call] }
  | .ok mode =>
    (i.walkMode segment steps mode exit).logging
      [.call call, .event (.interceptorEntered i.id mode)]

end Interceptor

def Segment.walk (index : Nat) : Segment R → Workspace R → Walk R
  | .plain step, work => step.walk index 0 work
  | .intercepted i steps, work => i.walk index steps work

def walkSegments (segments : List (Segment R)) (work : Workspace R) : Walk R :=
  walkEach Segment.walk 0 segments work

/-- Run a plan.  A run that ends without a failure on a finished context reports
that it was stopped. -/
def Plan.run (p : Plan R) (work : Workspace R) : Walk R :=
  let w := walkSegments p.segments work
  if w.failure.isNone && w.work.context.finished then
    { w with log := w.log ++ [.event (.pipelineStopped w.completed)] }
  else w

end

end StepWeave

import StepWeave.Proofs.Execution.Planned
import StepWeave.Proofs.Run.Log
import StepWeave.Proofs.Run.Narration

/-!
# The events of an execution

What an execution reports, whether it finds a plan or not (`Execution.Reports`).
Executing a variant and executing a name both report so.  The last event counts the steps
that returned without failing (`Execution.Of.events_eq`).
-/

namespace StepWeave

variable [Types]

namespace Execution

variable {R : Type}

/-- What the execution `id` of the pipeline `name` for `layer` on `work` reports when
`planned` came of finding its variant and planning it. -/
def Reports (planned : Except Failure (Plan R)) (id : ExecutionId) (name : String)
    (layer : Option String) (work : Workspace R) (e : Execution R) : Prop :=
  match planned with
  | .error failure =>
    e.failure = some failure ∧ e.work = work ∧
      e.events = [.pipelineCompleted id .failed 0 none]
  | .ok plan =>
    e.failure = (plan.run work).failure ∧ e.work = (plan.run work).work ∧
      ∃ body duration,
        e.events =
          .pipelineStarted id name layer plan.total :: (body ++
            (if e.failure = none ∧ e.work.context.finished = true then
              [.pipelineStopped (Event.completions body)]
            else []) ++
            [.pipelineCompleted id (.ofFailure e.failure) (Event.completions body)
              (some duration)]) ∧
        (∀ event ∈ body, event.isInner = true) ∧
        ∀ before event after, e.events = before ++ event :: after → event.InPlace before after

theorem reports_aborted (id : ExecutionId) (clock : Clock) (name : String)
    (layer : Option String) (failure : Failure) (work : Workspace R) :
    Reports (.error failure) id name layer work
      (aborted id clock (.new name layer) failure work) :=
  ⟨rfl, rfl, rfl⟩

theorem reports_run (v : Variant R) (id : ExecutionId) (clock : Clock) (name : String)
    (layer : Option String) (work : Workspace R) :
    Reports (Plan.build v) id name layer work (run id clock (.new name layer) v work) := by
  cases hbuild : Plan.build v with
  | error failure =>
      rw [run, hbuild]
      exact reports_aborted id clock name layer failure work
  | ok plan =>
      have hfailure := failure_run hbuild id clock name layer work
      have hwork := work_run hbuild id clock name layer work
      obtain ⟨duration, hevents⟩ := events_run hbuild id clock name layer work
      obtain ⟨body, hbody, hrun⟩ := plan.body_run work
      rw [hrun, List.cons_append, List.append_assoc] at hevents
      have hplaced : Event.AllInPlace [] (run id clock (.new name layer) v work).events := by
        rw [hevents]
        refine ⟨trivial, hbody.allInPlace rfl ?_ ?_⟩
        · intro before
          split <;> simp [Event.AllInPlace, Event.InPlace]
        · intro hfailed
          obtain ⟨failure, hsome⟩ := Option.isSome_iff_exists.1 hfailed
          simp [hsome, Status.ofFailure]
      refine ⟨hfailure, hwork, body, duration, ?_, hbody.isInner, ?_⟩
      · rw [hevents, hbody.completions_eq, hfailure, hwork, List.append_assoc]
      · exact fun before event after heq => hplaced.inPlace heq

/-- Whatever its steps and interceptors do, an execution reports the same kind of
story, be its variant given or found by name. -/
theorem execute_reports :
    (∀ {R : Type} (v : Variant R) (id : ExecutionId) (clock : Clock) (work : Workspace R),
      Reports (Plan.build v.flatten) id v.name v.layer work (v.execute id clock work)) ∧
    ∀ (r : Registry) (type : TypeTag) (name : String) (layer : Option String)
      (id : ExecutionId) (clock : Clock) (work : Workspace type.Carrier),
      Reports ((r.resolve type name layer).bind Plan.build) id name layer work
        (r.execute type name layer id clock work) := by
  constructor
  · intro R v id clock work
    exact reports_run v.flatten id clock v.name v.layer work
  · intro r type name layer id clock work
    rw [Registry.execute]
    cases hresolve : r.resolve type name layer with
    | error failure => exact reports_aborted id clock name layer failure work
    | ok v => exact reports_run v id clock name layer work

end Execution

/-! ## Counting the steps that completed -/

def Callback.completes : Callback → Bool
  | step _ _ (.ok ()) => true
  | _ => false

section

variable {R : Type}

/-- The number of steps that were called and did not fail. -/
def Call.completedSteps (calls : List (Call R)) : Nat :=
  calls.countP fun c => c.callback.completes

theorem Call.completions_events (c : Call R) :
    Event.completions c.events = if c.callback.completes then 1 else 0 := by
  obtain ⟨segment, callback, entry, exit, pause⟩ := c
  rcases callback with ⟨_, _, _ | _⟩ | ⟨_, _ | _⟩ | ⟨_, _, _ | _⟩ | ⟨_, _ | _⟩ <;> rfl

theorem Call.completions_flatMap_events (calls : List (Call R)) :
    Event.completions (calls.flatMap events) = completedSteps calls := by
  induction calls with
  | nil => rfl
  | cons c rest ih =>
      rw [List.flatMap_cons, Event.completions, List.countP_append, completedSteps,
        List.countP_cons, Nat.add_comm]
      exact congrArg₂ (· + ·) ih c.completions_events

theorem Plan.completed_run_eq (p : Plan R) (work : Workspace R) :
    (p.run work).completed = Call.completedSteps (p.run work).calls := by
  obtain ⟨body, hbody, hevents⟩ := p.body_run work
  rw [p.events_run_eq] at hevents
  have hcalls : (p.run work).calls.flatMap Call.events = body := List.append_cancel_right hevents
  rw [← Call.completions_flatMap_events, hcalls, hbody.completions_eq]

namespace Execution

variable {planned : Except Failure (Plan R)} {id : ExecutionId} {name : String}
  {layer : Option String} {work : Workspace R} {e : Execution R}

/-- The last event tells how the execution ended and how many steps completed. -/
theorem Of.events_eq (h : Of planned id name layer work e) : ∃ front duration,
    e.events = front ++
      [.pipelineCompleted id (.ofFailure e.failure) (Call.completedSteps e.calls) duration] := by
  cases hplanned : planned with
  | error failure =>
      rw [h.eq_of_error hplanned]
      exact ⟨[], none, rfl⟩
  | ok plan =>
      obtain ⟨duration, he⟩ := h.eq_of_ok hplanned
      refine ⟨.pipelineStarted id name layer plan.total :: (plan.run work).events,
        some duration, ?_⟩
      rw [h.calls_of_ok hplanned, ← plan.completed_run_eq work]
      simp [he, events, Walk.events, Record.event?]

end Execution

end

end StepWeave

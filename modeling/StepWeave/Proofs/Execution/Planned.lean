import StepWeave.Execution
import StepWeave.Proofs.Run.Walk

/-!
# Executions that find a plan

Between the events of its start and its end an execution is the run of its plan
(`Execution.run_eq`), be its variant given or found by name (`Execution.Of`).
-/

namespace StepWeave

def Status.ofFailure : Option Failure → Status
  | none => .completed
  | some _ => .failed

variable [Types]

namespace Execution

variable {R : Type} {v : Variant R} {plan : Plan R} (h : Plan.build v = .ok plan)
  (id : ExecutionId) (clock : Clock) (name : String) (layer : Option String)
  (work : Workspace R)
include h

/-- An execution takes the time between the readings of the clock. -/
theorem run_eq_clocked :
    run id clock (.new name layer) v work =
      { failure := (plan.run work).failure
        work := (plan.run work).work
        log := .event (.pipelineStarted id name layer plan.total) :: (plan.run work).log ++
          [.event (.pipelineCompleted id (.ofFailure (plan.run work).failure)
            (plan.run work).completed
            (some (clock.start.millisBetween clock.stop)))] } := by
  cases hfailure : (plan.run work).failure <;>
    simp [run, h, hfailure, Progress.new, Progress.resolve, Progress.start, Progress.complete,
      Progress.fail, Progress.finish, Status.isTerminal, Progress.durationMillis,
      Status.ofFailure]

theorem run_eq : ∃ duration,
    run id clock (.new name layer) v work =
      { failure := (plan.run work).failure
        work := (plan.run work).work
        log := .event (.pipelineStarted id name layer plan.total) :: (plan.run work).log ++
          [.event (.pipelineCompleted id (.ofFailure (plan.run work).failure)
            (plan.run work).completed (some duration))] } :=
  ⟨_, run_eq_clocked h id clock name layer work⟩

theorem failure_run :
    (run id clock (.new name layer) v work).failure = (plan.run work).failure := by
  obtain ⟨duration, heq⟩ := run_eq h id clock name layer work
  rw [heq]

theorem work_run : (run id clock (.new name layer) v work).work = (plan.run work).work := by
  obtain ⟨duration, heq⟩ := run_eq h id clock name layer work
  rw [heq]

theorem calls_run : (run id clock (.new name layer) v work).calls = (plan.run work).calls := by
  obtain ⟨duration, heq⟩ := run_eq h id clock name layer work
  simp [heq, calls, Walk.calls, List.filterMap_cons, Record.call?]

theorem events_run : ∃ duration,
    (run id clock (.new name layer) v work).events =
      .pipelineStarted id name layer plan.total :: (plan.run work).events ++
        [.pipelineCompleted id (.ofFailure (plan.run work).failure)
          (plan.run work).completed (some duration)] := by
  obtain ⟨duration, heq⟩ := run_eq h id clock name layer work
  exact ⟨duration, by simp [heq, events, Walk.events, Record.event?]⟩

end Execution

/-! ## Both ways to execute -/

namespace Execution

/-- `e` is the execution `id` on `work` of the pipeline `name` for `layer`, of a variant that
is given or found by name, and `planned` is what came of finding and planning it. -/
inductive Of : {R : Type} → (planned : Except Failure (Plan R)) → (id : ExecutionId) →
    (name : String) → (layer : Option String) → (work : Workspace R) → (e : Execution R) →
    Prop where
  | variant {R : Type} (v : Variant R) (id : ExecutionId) (clock : Clock) (work : Workspace R) :
    Of (Plan.build v.flatten) id v.name v.layer work (v.execute id clock work)
  | pipeline (r : Registry) (type : TypeTag) (name : String) (layer : Option String)
      (id : ExecutionId) (clock : Clock) (work : Workspace type.Carrier) :
    Of ((r.resolve type name layer).bind Plan.build) id name layer work
      (r.execute type name layer id clock work)

variable {R : Type} {planned : Except Failure (Plan R)} {id : ExecutionId} {name : String}
  {layer : Option String} {work : Workspace R} {e : Execution R}

theorem Of.eq_of_ok (h : Of planned id name layer work e) {plan : Plan R}
    (hplan : planned = .ok plan) : ∃ duration,
    e = { failure := (plan.run work).failure
          work := (plan.run work).work
          log := .event (.pipelineStarted id name layer plan.total) :: (plan.run work).log ++
            [.event (.pipelineCompleted id (.ofFailure (plan.run work).failure)
              (plan.run work).completed (some duration))] } := by
  cases h with
  | variant v id clock work => exact run_eq hplan id clock v.name v.layer work
  | pipeline r type name layer id clock work =>
      unfold Registry.execute
      cases hresolve : r.resolve type name layer with
      | error failure =>
          rw [hresolve] at hplan
          cases hplan
      | ok v =>
          rw [hresolve] at hplan
          exact run_eq hplan id clock name layer work

theorem Of.eq_of_error (h : Of planned id name layer work e) {failure : Failure}
    (hplan : planned = .error failure) :
    e = { failure := some failure
          work
          log := [.event (.pipelineCompleted id .failed 0 none)] } := by
  cases h with
  | variant v id clock work =>
      rw [Variant.execute, run, hplan]
      rfl
  | pipeline r type name layer id clock work =>
      unfold Registry.execute
      cases hresolve : r.resolve type name layer with
      | error failure' =>
          rw [hresolve] at hplan
          cases hplan
          rfl
      | ok v =>
          rw [hresolve] at hplan
          have hbuild : Plan.build v = .error failure := hplan
          simp only [run, hbuild]
          rfl

theorem Of.calls_of_error (h : Of planned id name layer work e) {failure : Failure}
    (hplan : planned = .error failure) : e.calls = [] := by
  rw [h.eq_of_error hplan]
  rfl

theorem Of.outcome_of_ok (h : Of planned id name layer work e) {plan : Plan R}
    (hplan : planned = .ok plan) :
    e.failure = (plan.run work).failure ∧ e.work = (plan.run work).work ∧ ∃ duration,
      e.events = .pipelineStarted id name layer plan.total :: (plan.run work).events ++
        [.pipelineCompleted id (.ofFailure (plan.run work).failure) (plan.run work).completed
          (some duration)] := by
  obtain ⟨duration, heq⟩ := h.eq_of_ok hplan
  rw [heq]
  exact ⟨rfl, rfl, duration, by simp [events, Walk.events, Record.event?]⟩

theorem Of.calls_of_ok (h : Of planned id name layer work e) {plan : Plan R}
    (hplan : planned = .ok plan) : e.calls = (plan.run work).calls := by
  obtain ⟨duration, heq⟩ := h.eq_of_ok hplan
  simp [heq, calls, Walk.calls, List.filterMap_cons, Record.call?]

end Execution

end StepWeave

import Mathlib.Data.List.Flatten
import StepWeave.Proofs.Execution.Events

/-!
# Announced and completed steps

The events of a run announce the steps that it calls and report those that completed
(`Plan.startedIds_run`, `Plan.completedIds_sublist`).  At no moment have more steps completed
than were announced (`Plan.covered_run`).
-/

namespace StepWeave

/-! ## The ids in the events -/

namespace Event

def started? : Event → Option String
  | stepStarted step => some step
  | _ => none

def completed? : Event → Option String
  | stepCompleted step => some step
  | _ => none

def startedIds (events : List Event) : List String := events.filterMap started?

def completedIds (events : List Event) : List String := events.filterMap completed?

theorem startedIds_append (events later : List Event) :
    startedIds (events ++ later) = startedIds events ++ startedIds later :=
  List.filterMap_append

theorem completedIds_append (events later : List Event) :
    completedIds (events ++ later) = completedIds events ++ completedIds later :=
  List.filterMap_append

theorem length_completedIds (events : List Event) :
    (completedIds events).length = completions events := by
  rw [completedIds, List.length_filterMap_eq_countP, completions]
  refine congrArg (List.countP · events) (funext fun event => ?_)
  cases event <;> rfl

end Event

namespace Callback

def stepId? : Callback → Option String
  | step _ id _ => some id
  | _ => none

theorem exists_announcement_of_completes {callback : Callback} (h : callback.completes = true) :
    ∃ id, callback.announcement? = some (.stepStarted id) := by
  cases callback with
  | step position id answer => exact ⟨id, rfl⟩
  | _ => contradiction

end Callback

variable [Types] {R : Type}

namespace Call

theorem startedIds_events (c : Call R) :
    Event.startedIds c.events = c.callback.stepId?.toList := by
  obtain ⟨segment, callback, entry, exit, pause⟩ := c
  rcases callback with ⟨_, _, _ | _⟩ | ⟨_, _ | _⟩ | ⟨_, _, _ | _⟩ | ⟨_, _ | _⟩ <;> rfl

theorem completedIds_events (c : Call R) :
    Event.completedIds c.events =
      if c.callback.completes then c.callback.stepId?.toList else [] := by
  obtain ⟨segment, callback, entry, exit, pause⟩ := c
  rcases callback with ⟨_, _, _ | _⟩ | ⟨_, _ | _⟩ | ⟨_, _, _ | _⟩ | ⟨_, _ | _⟩ <;> rfl

theorem startedIds_flatMap_events (calls : List (Call R)) :
    Event.startedIds (calls.flatMap events) = calls.filterMap fun c => c.callback.stepId? := by
  rw [Event.startedIds, List.filterMap_flatMap, List.filterMap_eq_flatMap_toList]
  exact congrArg (List.flatMap · calls) (funext startedIds_events)

/-- What is reported as completed was announced before, in the same order. -/
theorem completedIds_flatMap_events (calls : List (Call R)) :
    (Event.completedIds (calls.flatMap events)).Sublist
      (Event.startedIds (calls.flatMap events)) := by
  rw [Event.completedIds, Event.startedIds, List.filterMap_flatMap, List.filterMap_flatMap]
  refine List.Sublist.flatMap_right calls fun c _ => ?_
  change (Event.completedIds c.events).Sublist (Event.startedIds c.events)
  rw [completedIds_events, startedIds_events]
  split
  · exact .refl _
  · exact List.nil_sublist _

end Call

namespace Plan

variable (p : Plan R) (work : Workspace R)

theorem startedIds_run :
    Event.startedIds (p.run work).events =
      (p.run work).calls.filterMap fun c => c.callback.stepId? := by
  have hstop : Event.startedIds (p.stopEvents work) = [] := by
    rw [stopEvents]
    split <;> rfl
  rw [events_run_eq, Event.startedIds_append, hstop, List.append_nil,
    Call.startedIds_flatMap_events]

theorem completedIds_run :
    Event.completedIds (p.run work).events =
      Event.completedIds ((p.run work).calls.flatMap Call.events) := by
  have hstop : Event.completedIds (p.stopEvents work) = [] := by
    rw [stopEvents]
    split <;> rfl
  rw [events_run_eq, Event.completedIds_append, hstop, List.append_nil]

theorem completedIds_sublist :
    (Event.completedIds (p.run work).events).Sublist
      (Event.startedIds (p.run work).events) := by
  rw [completedIds_run, startedIds_run, ← Call.startedIds_flatMap_events]
  exact Call.completedIds_flatMap_events _

theorem length_completedIds_run :
    (Event.completedIds (p.run work).events).length = (p.run work).completed := by
  rw [completedIds_run, Event.length_completedIds, Call.completions_flatMap_events,
    completed_run_eq]

end Plan

/-! ## Counting while the run goes on -/

namespace Record

variable {log later : List (Record R)}

/-- At no moment have more steps completed than were announced.  A step counts as completed
once its call has returned, which is before the event that reports it. -/
def Covered (log : List (Record R)) : Prop :=
  ∀ past future, log = past ++ future →
    Call.completedSteps (past.filterMap call?) ≤
      (Event.startedIds (past.filterMap event?)).length

theorem covered_events (events : List Event) :
    Covered (events.map (event (R := R))) := by
  intro past future heq
  have hcalls : past.filterMap call? = [] := by
    have hall := filterMap_call?_map (R := R) events
    rw [heq, List.filterMap_append, List.append_eq_nil_iff] at hall
    exact hall.1
  rw [hcalls]
  exact Nat.zero_le _

theorem Covered.append (h : Covered log) (hlater : Covered later) : Covered (log ++ later) := by
  intro past future heq
  obtain ⟨rest, rfl, hrest⟩ | ⟨rest, hrest, -⟩ := List.append_eq_append_iff.1 heq
  · -- The moment comes after all of `log`.
    have hlog := h log [] (List.append_nil log).symm
    have hpast := hlater rest future hrest
    rw [List.filterMap_append, List.filterMap_append, Event.startedIds_append,
      List.length_append, Call.completedSteps, List.countP_append]
    exact Nat.add_le_add hlog hpast
  · exact h past rest hrest

end Record

/-- A step that is called was announced right before. -/
theorem Call.covered_records (c : Call R) : Record.Covered c.records := by
  intro past future heq
  have hcalls : (past.filterMap Record.call?).Sublist [c] := by
    have hprefix := (List.sublist_append_left past future).filterMap Record.call?
    rwa [← heq, filterMap_call?_records] at hprefix
  have hle := hcalls.countP_le (p := fun c => c.callback.completes)
  cases hcompletes : c.callback.completes with
  | false =>
      rw [List.countP_singleton, hcompletes] at hle
      exact Nat.le_trans hle (Nat.zero_le _)
  | true =>
      obtain ⟨id, hannounced⟩ := Callback.exists_announcement_of_completes hcompletes
      rw [records, announcement, hannounced] at heq
      cases past with
      | nil => exact Nat.zero_le _
      | cons first rest =>
          obtain ⟨rfl, -⟩ := List.cons_eq_cons.1 heq
          calc completedSteps _ ≤ List.countP (fun c => c.callback.completes) [c] := hle
            _ ≤ 1 := List.countP_le_length
            _ ≤ _ := Nat.le_add_left 1 _

theorem Call.covered_flatMap_records (calls : List (Call R)) :
    Record.Covered (calls.flatMap records) := by
  induction calls with
  | nil => exact Record.covered_events []
  | cons c rest ih =>
      rw [List.flatMap_cons]
      exact c.covered_records.append ih

theorem Plan.covered_run (p : Plan R) (work : Workspace R) : Record.Covered (p.run work).log := by
  rw [log_run]
  exact (Call.covered_flatMap_records _).append (Record.covered_events _)

end StepWeave

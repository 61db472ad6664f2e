import StepWeave.Proofs.Run.Trace

/-!
# The log of a run

The calls of a run decide what it reports.  A step is announced before it is called, and
what a call answered is reported after it, unless an interceptor failed or has just acted
after its steps (`Call.records`).  The log of a run is made of nothing else but a last line
on a finished context (`Plan.log_run`).
-/

namespace StepWeave

variable [Types] {R α : Type}

/-! ## What a call leaves in the log -/

namespace Callback

def announcement? : Callback → Option Event
  | step _ id _ => some (.stepStarted id)
  | _ => none

def report? : Callback → Option Event
  | step _ id (.ok ()) => some (.stepCompleted id)
  | step _ id (.error failure) => some (.stepFailed id failure.message)
  | before id (.ok mode) => some (.interceptorEntered id mode)
  | onThrow id failure (.ok recovery) => some (.failureRecovered id failure.message recovery)
  | _ => none

end Callback

namespace Call

def announcement (c : Call R) : List Event := c.callback.announcement?.toList

def report (c : Call R) : List Event := c.callback.report?.toList

def events (c : Call R) : List Event := c.announcement ++ c.report

def records (c : Call R) : List (Record R) :=
  c.announcement.map .event ++ .call c :: c.report.map .event

end Call

namespace Record

theorem filterMap_event?_map (events : List Event) :
    (events.map (Record.event (R := R))).filterMap Record.event? = events := by
  induction events with
  | nil => rfl
  | cons e rest ih => exact congrArg (e :: ·) ih

theorem filterMap_call?_map (events : List Event) :
    (events.map (Record.event (R := R))).filterMap Record.call? = [] := by
  induction events with
  | nil => rfl
  | cons e rest ih => exact ih

end Record

namespace Call

@[simp] theorem filterMap_call?_records (c : Call R) :
    c.records.filterMap Record.call? = [c] := by
  have hreport : (.call c :: c.report.map .event : List (Record R)).filterMap Record.call? =
      c :: (c.report.map .event : List (Record R)).filterMap Record.call? := rfl
  rw [records, List.filterMap_append, hreport, Record.filterMap_call?_map,
    Record.filterMap_call?_map]
  rfl

@[simp] theorem filterMap_event?_records (c : Call R) :
    c.records.filterMap Record.event? = c.events := by
  have hreport : (.call c :: c.report.map .event : List (Record R)).filterMap Record.event? =
      (c.report.map .event : List (Record R)).filterMap Record.event? := rfl
  rw [records, List.filterMap_append, hreport, Record.filterMap_event?_map,
    Record.filterMap_event?_map]
  rfl

theorem filterMap_call?_flatMap_records (calls : List (Call R)) :
    (calls.flatMap records).filterMap Record.call? = calls := by
  induction calls with
  | nil => rfl
  | cons c rest ih =>
      rw [List.flatMap_cons, List.filterMap_append, ih, filterMap_call?_records]
      rfl

theorem filterMap_event?_flatMap_records (calls : List (Call R)) :
    (calls.flatMap records).filterMap Record.event? = calls.flatMap events := by
  induction calls with
  | nil => rfl
  | cons c rest ih =>
      rw [List.flatMap_cons, List.filterMap_append, ih, filterMap_event?_records]
      rfl

end Call

/-! ## Logs that the calls decide -/

namespace Walk

def IsTold (w : Walk R) : Prop := w.log = w.calls.flatMap Call.records

namespace IsTold

variable {w later : Walk R} {c : Call R}

theorem idle (work : Workspace R) : ({ work } : Walk R).IsTold := rfl

theorem single (h : w.log = c.records) : w.IsTold := by
  rw [IsTold, calls, h, Call.filterMap_call?_records]
  simp

theorem append (hw : w.IsTold) (hlater : later.IsTold) : (w.append later).IsTold := by
  rw [IsTold, calls_append, List.flatMap_append, ← hw, ← hlater]
  rfl

theorem logging (h : w.IsTold) {records : List (Record R)} (hrecords : records = c.records) :
    (w.logging records).IsTold := by
  subst hrecords
  rw [IsTold, calls_logging, Call.filterMap_call?_records, List.flatMap_append, ← h]
  simp [Walk.logging]

theorem events_eq (h : w.IsTold) : w.events = w.calls.flatMap Call.events := by
  rw [events, h, Call.filterMap_event?_flatMap_records]

end IsTold

theorem isTold_walkEach {go : Nat → α → Workspace R → Walk R}
    (hgo : ∀ index part work, (go index part work).IsTold) (index : Nat) (parts : List α)
    (work : Workspace R) : (walkEach go index parts work).IsTold := by
  induction parts generalizing index work with
  | nil => exact .idle work
  | cons part rest ih =>
      obtain ⟨-, h⟩ | ⟨-, -, h⟩ | ⟨-, -, h⟩ := walkEach_cons go index part rest work
      · rw [h]
        exact .idle work
      · rw [h]
        exact hgo index part work
      · rw [h]
        exact (hgo index part work).append (ih (index + 1) _)

end Walk

section

variable (segment position : Nat) (s : Step R) (i : Interceptor R) (steps : List (Step R))
  (mode : Mode) (cause : Failure) (work : Workspace R)

theorem Step.isTold_walk : (s.walk segment position work).IsTold := by
  cases h : (s.act work).1 with
  | ok =>
      rw [Step.walk_ok h]
      refine .single (c := s.call segment position work) ?_
      simp [Call.records, Call.announcement, Call.report, call, h, Callback.announcement?,
        Callback.report?]
  | error failure =>
      rw [Step.walk_error h]
      refine .single (c := s.call segment position work) ?_
      simp [Call.records, Call.announcement, Call.report, call, h, Callback.announcement?,
        Callback.report?]

theorem isTold_walkRange : (walkRange segment steps mode work).IsTold := by
  rw [walkRange]
  split
  · exact Walk.isTold_walkEach (fun index s work => s.isTold_walk segment index work) 0 steps work
  · exact .idle work

namespace Interceptor

theorem isTold_walkAfter : (i.walkAfter segment work).IsTold := by
  cases h : (i.after work).1 with
  | ok =>
      rw [walkAfter_ok h]
      exact .single (c := i.afterCall segment work) rfl
  | error failure =>
      rw [walkAfter_error h]
      exact .single (c := i.afterCall segment work) rfl

theorem isTold_walkThrow : (i.walkThrow segment mode cause work).IsTold := by
  cases h : (i.onThrow cause work.context).1 with
  | error failure =>
      rw [walkThrow_error h]
      refine .single (c := i.throwCall segment cause work) ?_
      simp [Call.records, Call.announcement, Call.report, throwCall, h, Callback.announcement?,
        Callback.report?]
  | ok recovery =>
      rw [walkThrow_ok h]
      refine .logging (c := i.throwCall segment cause work) ?_ ?_
      · split
        · exact i.isTold_walkAfter segment _
        · exact .idle _
      · simp [Call.records, Call.announcement, Call.report, throwCall, h,
          Callback.announcement?, Callback.report?]

theorem isTold_walkMode : (i.walkMode segment steps mode work).IsTold := by
  have hrange := isTold_walkRange segment steps mode work
  cases h : (walkRange segment steps mode work).failure with
  | some cause =>
      rw [walkMode_of_failure h]
      exact hrange.append (i.isTold_walkThrow segment mode cause _)
  | none =>
      rw [walkMode_of_none h]
      split
      · exact hrange.append (i.isTold_walkAfter segment _)
      · exact hrange

theorem isTold_walk : (i.walk segment steps work).IsTold := by
  cases h : (i.before work.context).1 with
  | error failure =>
      rw [walk_error h]
      refine .single (c := i.beforeCall segment work) ?_
      simp [Call.records, Call.announcement, Call.report, beforeCall, h,
        Callback.announcement?, Callback.report?]
  | ok mode =>
      rw [walk_ok h]
      refine .logging (c := i.beforeCall segment work) (i.isTold_walkMode segment steps mode _) ?_
      simp [Call.records, Call.announcement, Call.report, beforeCall, h,
        Callback.announcement?, Callback.report?]

end Interceptor

theorem Segment.isTold_walk (s : Segment R) : (s.walk segment work).IsTold := by
  cases s with
  | plain step => exact step.isTold_walk segment 0 work
  | intercepted i steps => exact i.isTold_walk segment steps work

end

/-! ## Whole runs -/

namespace Plan

variable (p : Plan R) (work : Workspace R)

theorem isTold_walkSegments : (walkSegments p.segments work).IsTold :=
  Walk.isTold_walkEach (fun index s work => s.isTold_walk index work) 0 p.segments work

/-- The event that ends the log of a run on a finished context. -/
def stopEvents : List Event :=
  if (p.run work).failure = none ∧ (p.run work).work.context.finished = true then
    [.pipelineStopped (p.run work).completed]
  else []

theorem log_run :
    (p.run work).log =
      (p.run work).calls.flatMap Call.records ++ (p.stopEvents work).map .event := by
  rw [stopEvents, calls_run, ← p.isTold_walkSegments work, failure_run, work_run, completed_run,
    run_eq]
  split <;> simp

theorem events_run_eq :
    (p.run work).events = (p.run work).calls.flatMap Call.events ++ p.stopEvents work := by
  rw [events_run, calls_run, (p.isTold_walkSegments work).events_eq]
  rfl

end Plan

end StepWeave

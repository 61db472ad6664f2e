import StepWeave.Proofs.Execution.Planned
import StepWeave.Proofs.Run.Finish
import StepWeave.ValueType

/-!
# Executions on a finished context

An execution that begins with a finished context starts nothing, and one that finishes its
context starts nothing from there on, nor does any later execution on the context
(`Execution.HeedsFinish`).  An interceptor that finishes the context when it is asked is
still reported as entered.
-/

namespace StepWeave

section

variable [Types] {R : Type}

namespace Execution

/-- Executions that follow each other, of whatever pipelines, make the second context of
the first. -/
inductive Leads (c : Context) : Context → Prop where
  | refl : Leads c c
  | tail {R : Type} {planned : Except Failure (Plan R)} {id : ExecutionId} {name : String}
      {layer : Option String} {work : Workspace R} {e : Execution R} :
    Leads c work.context → Of planned id name layer work e → Leads c e.work.context

/-- How the execution `e` on `work` heeds the mark that a context is finished. -/
structure HeedsFinish (planned : Except Failure (Plan R)) (id : ExecutionId) (name : String)
    (layer : Option String) (work : Workspace R) (e : Execution R) : Prop where
  unfinished : ∀ c ∈ e.calls, c.callback.isOpening = true → c.entry.context.finished = false
  /-- On a finished context nothing is called and nothing changes. -/
  idle : ∀ plan, planned = .ok plan → work.context.finished = true →
    e.calls = [] ∧ e.failure = none ∧ e.work = work ∧ ∃ duration,
      e.events = [.pipelineStarted id name layer plan.total, .pipelineStopped 0,
        .pipelineCompleted id .completed 0 (some duration)]
  /-- Once a call has left the context finished, its report is the last event that may tell
  of a start. -/
  closed : (∀ c ∈ e.calls, KeepsFinish c.entry c.exit) →
    ∀ front c later, e.calls = front ++ c :: later → c.exit.context.finished = true →
      ∃ before after, e.log = before ++ .call c :: (c.report.map .event ++ after) ∧
        before.filterMap Record.call? = front ∧
        ∀ event ∈ after.filterMap Record.event?, event.isOpening = false
  /-- Later executions start nothing either. -/
  later_closed : (∀ c ∈ e.calls, KeepsFinish c.entry c.exit) →
    (∃ c ∈ e.calls, c.exit.context.finished = true) →
      ∀ {R' : Type} {planned' : Except Failure (Plan R')} {id' : ExecutionId} {name' : String}
        {layer' : Option String} {work' : Workspace R'} {e' : Execution R'},
        Leads e.work.context work'.context → Of planned' id' name' layer' work' e' →
          e'.calls = [] ∧ ∀ event ∈ e'.events, event.isOpening = false

section

variable {planned : Except Failure (Plan R)} {id : ExecutionId} {name : String}
  {layer : Option String} {work : Workspace R} {e : Execution R}

theorem Of.exists_plan_of_mem (h : Of planned id name layer work e) {c : Call R}
    (hc : c ∈ e.calls) : ∃ plan, planned = .ok plan ∧ e.calls = (plan.run work).calls := by
  cases hplan : planned with
  | error failure =>
      rw [h.calls_of_error hplan] at hc
      contradiction
  | ok plan => exact ⟨plan, rfl, h.calls_of_ok hplan⟩

/-- The log of an execution is that of its calls between other events, of which the later
ones tell of no start. -/
theorem Of.log_of_ok (h : Of planned id name layer work e) {plan : Plan R}
    (hplan : planned = .ok plan) : ∃ first last : List Event,
    e.log = first.map .event ++ (e.calls.flatMap Call.records ++ last.map .event) ∧
      ∀ event ∈ last, event.isOpening = false := by
  have hcalls := h.calls_of_ok hplan
  obtain ⟨duration, heq⟩ := h.eq_of_ok hplan
  refine ⟨[.pipelineStarted id name layer plan.total], plan.stopEvents work ++
    [.pipelineCompleted id (.ofFailure (plan.run work).failure) (plan.run work).completed
      (some duration)], ?_, fun event hevent => ?_⟩
  · rw [hcalls, heq, plan.log_run]
    simp
  · rw [List.mem_append, Plan.stopEvents] at hevent
    obtain hevent | hevent := hevent
    · split at hevent
      · rw [List.mem_singleton.1 hevent]
        rfl
      · contradiction
    · rw [List.mem_singleton.1 hevent]
      rfl

theorem Of.idle_of_finished (h : Of planned id name layer work e) {plan : Plan R}
    (hplan : planned = .ok plan) (hfinished : work.context.finished = true) :
    e.calls = [] ∧ e.failure = none ∧ e.work = work ∧ ∃ duration,
      e.events = [.pipelineStarted id name layer plan.total, .pipelineStopped 0,
        .pipelineCompleted id .completed 0 (some duration)] := by
  obtain ⟨duration, heq⟩ := h.eq_of_ok hplan
  rw [plan.run_of_finished hfinished] at heq
  rw [heq]
  exact ⟨rfl, rfl, rfl, duration, rfl⟩

theorem Of.closed_of_finished (h : Of planned id name layer work e)
    (hfinished : work.context.finished = true) :
    e.calls = [] ∧ e.work = work ∧ ∀ event ∈ e.events, event.isOpening = false := by
  cases hplan : planned with
  | error failure =>
      rw [h.eq_of_error hplan]
      refine ⟨rfl, rfl, fun event hevent => ?_⟩
      rw [List.mem_singleton.1 hevent]
      rfl
  | ok plan =>
      obtain ⟨hcalls, -, hwork, duration, hevents⟩ := h.idle_of_finished hplan hfinished
      refine ⟨hcalls, hwork, ?_⟩
      rw [hevents]
      simp [Event.isOpening]

theorem Leads.eq_of_finished {c c' : Context} (h : Leads c c') (hfinished : c.finished = true) :
    c' = c := by
  induction h with
  | refl => rfl
  | tail _ hof ih =>
      subst ih
      rw [(hof.closed_of_finished hfinished).2.1]

theorem Of.closed (h : Of planned id name layer work e)
    (hkeeps : ∀ c ∈ e.calls, KeepsFinish c.entry c.exit) {front later : List (Call R)}
    {c : Call R} (hcalls : e.calls = front ++ c :: later)
    (hexit : c.exit.context.finished = true) :
    ∃ before after, e.log = before ++ .call c :: (c.report.map .event ++ after) ∧
      before.filterMap Record.call? = front ∧
      ∀ event ∈ after.filterMap Record.event?, event.isOpening = false := by
  obtain ⟨plan, hplan, hrun⟩ := h.exists_plan_of_mem (show c ∈ e.calls by simp [hcalls])
  obtain ⟨first, last, hlog, hlast⟩ := h.log_of_ok hplan
  rw [hrun] at hkeeps
  obtain ⟨hlater, -⟩ := Plan.closed_after_finish (hrun.symm.trans hcalls) hexit hkeeps
  refine ⟨first.map .event ++ (front.flatMap Call.records ++ c.announcement.map .event),
    later.flatMap Call.records ++ last.map .event, ?_, ?_, fun event hevent => ?_⟩
  · rw [hlog, hcalls, List.flatMap_append, List.flatMap_cons, Call.records]
    simp only [List.append_assoc, List.cons_append]
  · rw [List.filterMap_append, List.filterMap_append, Record.filterMap_call?_map,
      Record.filterMap_call?_map, Call.filterMap_call?_flatMap_records]
    simp
  · rw [List.filterMap_append, Call.filterMap_event?_flatMap_records,
      Record.filterMap_event?_map, List.mem_append] at hevent
    obtain hevent | hevent := hevent
    · exact Call.flatMap_events_of_not_opening hlater event hevent
    · exact hlast event hevent

theorem Of.finished_of_call (h : Of planned id name layer work e)
    (hkeeps : ∀ c ∈ e.calls, KeepsFinish c.entry c.exit) {c : Call R} (hc : c ∈ e.calls)
    (hexit : c.exit.context.finished = true) : e.work.context.finished = true := by
  obtain ⟨plan, hplan, hrun⟩ := h.exists_plan_of_mem hc
  obtain ⟨front, later, hcalls⟩ := List.append_of_mem hc
  rw [hrun] at hkeeps
  obtain ⟨-, hfinished⟩ := Plan.closed_after_finish (hrun.symm.trans hcalls) hexit hkeeps
  obtain ⟨duration, heq⟩ := h.eq_of_ok hplan
  rwa [heq]

theorem Of.heedsFinish (h : Of planned id name layer work e) :
    HeedsFinish planned id name layer work e where
  unfinished c hc hopening := by
    obtain ⟨plan, -, hrun⟩ := h.exists_plan_of_mem hc
    exact Plan.unfinished_of_opening (hrun ▸ hc) hopening
  idle plan hplan hfinished := h.idle_of_finished hplan hfinished
  closed hkeeps front c later hcalls hexit := h.closed hkeeps hcalls hexit
  later_closed hkeeps := by
    rintro ⟨c, hc, hexit⟩ R' planned' id' name' layer' work' e' hleads hof
    have hfinished := h.finished_of_call hkeeps hc hexit
    have hcontext := hleads.eq_of_finished hfinished
    obtain ⟨hcalls, -, hevents⟩ := hof.closed_of_finished (hcontext ▸ hfinished)
    exact ⟨hcalls, hevents⟩

end

end Execution

end

namespace Execution

/-- Every execution heeds the mark that a context is finished, and no ready-made step or
interceptor takes it off. -/
theorem finished_starts_nothing :
    (∀ [Types] {R : Type} {planned : Except Failure (Plan R)} {id : ExecutionId} {name : String}
      {layer : Option String} {work : Workspace R} {e : Execution R},
      Of planned id name layer work e → HeedsFinish planned id name layer work e) ∧
    (∀ [Types] {R : Type} (p : Plan R) (work : Workspace R), ∀ c ∈ (p.run work).calls,
      c.callback.isOpening = true → c.entry.context.finished = false) ∧
    (∀ s : TextStep, s.toStep.Respects KeepsFinish) ∧
    (∀ i : TextInterceptor, i.toInterceptor.Respects KeepsFinish) ∧
    ∀ [Types] {R : Type} (p : Plan R), (∀ s ∈ p.segments, s.Respects KeepsFinish) →
      ∀ (work : Workspace R), ∀ c ∈ (p.run work).calls, KeepsFinish c.entry c.exit :=
  ⟨fun h => h.heedsFinish, fun _ _ _ hc => Plan.unfinished_of_opening hc,
    TextStep.respects_keepsFinish, TextInterceptor.respects_keepsFinish,
    fun _ hp _ _ hc => Plan.respects_call hp hc⟩

/-- An interceptor that finishes the context as soon as it is asked. -/
def gate : Interceptor String where
  id := "gate"
  before c := (.ok .all, c.setFinished true)

def gated : Plan String where
  segments := [.intercepted gate [TextStep.toStep ⟨"a", .append "a"⟩]]

/-- The call that finishes the context is followed by the event that tells of its start. -/
theorem entered_after_finish :
    (∀ s ∈ gated.segments, s.Respects KeepsFinish) ∧
    ¬∀ before c after, (gated.run ⟨.empty, ""⟩).log = before ++ .call c :: after →
      c.entry.context.finished = false → c.exit.context.finished = true →
        ∀ event ∈ after.filterMap Record.event?, event.isOpening = false := by
  constructor
  · intro s hs
    rw [List.mem_singleton.1 hs]
    refine ⟨⟨fun _ _ => rfl, fun _ _ h => h, fun _ h => h⟩, fun step hstep => ?_⟩
    rw [List.mem_singleton.1 hstep]
    exact TextStep.respects_keepsFinish _
  · intro h
    have hentered := h [] (gate.beforeCall 0 ⟨.empty, ""⟩) _ rfl rfl rfl
      (.interceptorEntered "gate" .all) (by decide)
    contradiction

end Execution

end StepWeave

import StepWeave.Proofs.Run.Log
import StepWeave.Proofs.Run.Origin
import StepWeave.Proofs.Text

/-!
# Runs on a finished context

A step is called, and an interceptor asked, only on an unfinished context
(`Plan.unfinished_of_opening`).  If nothing takes the mark off again, then nothing more is
started once it is set (`Plan.closed_after_finish`).
-/

namespace StepWeave

section

variable [Types] {R : Type}

/-! ## Calls that start something -/

def Callback.isOpening : Callback → Bool
  | step .. | before .. => true
  | _ => false

def Event.isOpening : Event → Bool
  | stepStarted _ | interceptorEntered .. => true
  | _ => false

theorem Call.events_of_not_opening {c : Call R} (h : c.callback.isOpening = false) :
    ∀ e ∈ c.events, e.isOpening = false := by
  obtain ⟨segment, callback, entry, exit, pause⟩ := c
  intro e he
  cases callback with
  | step => contradiction
  | before => contradiction
  | onThrow id failure answer =>
      cases answer with
      | error => simp [events, announcement, report, Callback.announcement?,
          Callback.report?] at he
      | ok recovery =>
          obtain rfl : e = .failureRecovered id failure.message recovery := by
            simpa [events, announcement, report, Callback.announcement?,
              Callback.report?] using he
          rfl
  | after => simp [events, announcement, report, Callback.announcement?, Callback.report?] at he

theorem Call.flatMap_events_of_not_opening {calls : List (Call R)}
    (h : ∀ c ∈ calls, c.callback.isOpening = false) :
    ∀ e ∈ calls.flatMap events, e.isOpening = false := by
  intro e he
  obtain ⟨c, hc, hec⟩ := List.mem_flatMap.1 he
  exact events_of_not_opening (h c hc) e hec

theorem Segment.Makes.unfinished {s : Segment R} {index : Nat} {c : Call R}
    (h : s.Makes index c) (hopening : c.callback.isOpening = true) :
    c.entry.context.finished = false := by
  cases h with
  | plain hwork => exact hwork
  | before hwork => exact hwork
  | wrapped _ hwork => exact hwork
  | onThrow => contradiction
  | after => contradiction

theorem Plan.unfinished_of_opening {p : Plan R} {work : Workspace R} {c : Call R}
    (hc : c ∈ (p.run work).calls) (hopening : c.callback.isOpening = true) :
    c.entry.context.finished = false := by
  obtain ⟨s, -, hmakes⟩ := makes_of_mem_calls hc
  exact hmakes.unfinished hopening

/-! ## Keeping the mark -/

/-- The mark that ends a run is not taken off on the way from `work` to `later`. -/
def KeepsFinish (work later : Workspace R) : Prop :=
  work.context.finished = true → later.context.finished = true

namespace Plan

variable {p : Plan R} {work : Workspace R}

/-- After a call that leaves the context finished nothing is started, and the run leaves
the context finished. -/
theorem closed_after_finish {front later : List (Call R)} {c : Call R}
    (hcalls : (p.run work).calls = front ++ c :: later) (hexit : c.exit.context.finished = true)
    (hkeeps : ∀ d ∈ (p.run work).calls, KeepsFinish d.entry d.exit) :
    (∀ d ∈ later, d.callback.isOpening = false) ∧
      (p.run work).work.context.finished = true := by
  have hlater : ∀ d ∈ later, d ∈ (p.run work).calls := by
    intro d hd
    rw [hcalls]
    simp [hd]
  have hrelay : Relay c.exit later (p.run work).work := (hcalls ▸ p.relay_run work).drop
  obtain ⟨hentries, hfinish⟩ := hrelay.invariant (fun w => w.context.finished = true) hexit
    fun d hd => hkeeps d (hlater d hd)
  refine ⟨fun d hd => ?_, hfinish⟩
  by_contra hopening
  have hunfinished := unfinished_of_opening (hlater d hd) (by simpa using hopening)
  rw [hentries d hd] at hunfinished
  contradiction

theorem run_of_finished (h : work.context.finished = true) :
    p.run work = { work, log := [.event (.pipelineStopped 0)] } := by
  have hwalk : walkSegments p.segments work = { work } :=
    walkEach_of_finished Segment.walk 0 h p.segments
  rw [run_eq, hwalk]
  exact if_pos ⟨rfl, h⟩

end Plan

end

/-! ## Ready-made steps and interceptors -/

theorem TextStep.respects_keepsFinish (s : TextStep) : s.toStep.Respects KeepsFinish := by
  intro work hwork
  obtain heq | heq := s.context_act work
  · rw [heq]
    exact hwork
  · rw [heq]
    rfl

theorem TextInterceptor.respects_keepsFinish (i : TextInterceptor) :
    i.toInterceptor.Respects KeepsFinish := by
  obtain ⟨id, start, stop, kind⟩ := i
  cases kind <;> exact ⟨fun _ h => h, fun _ _ h => h, fun _ h => h⟩

end StepWeave

import Mathlib.Data.List.Basic
import StepWeave.Proofs.Run.Walk

/-!
# What the events of a run look like

`Event.Body` is the grammar of the events that a walk over segments emits, and
`Plan.body_run` says that every run follows it.  `Event.InPlace` says of a
single event what may stand right before and right after it; the grammar puts
every event in its place (`Event.Body.allInPlace`).
-/

namespace StepWeave

namespace Event

def entered? : Event → Option String
  | interceptorEntered interceptor _ => some interceptor
  | _ => none

/-- The interceptor that was entered most recently. -/
def lastEntered? (events : List Event) : Option String := (events.filterMap entered?).getLast?

def isStepCompleted : Event → Bool
  | stepCompleted _ => true
  | _ => false

def completions (events : List Event) : Nat := events.countP isStepCompleted

def ofCompleted (steps : List String) : List Event :=
  steps.flatMap fun step => [stepStarted step, stepCompleted step]

def isInner : Event → Bool
  | pipelineStarted .. | pipelineStopped _ | pipelineCompleted .. => false
  | _ => true

/-- What comes right before and right after an event about a step.  A failure is
recovered from at once, by the interceptor entered last, or it ends the execution. -/
def InPlace (before after : List Event) : Event → Prop
  | stepStarted step =>
    after.head? = some (stepCompleted step) ∨
      ∃ error, after.head? = some (stepFailed step error)
  | stepCompleted step => before.getLast? = some (stepStarted step)
  | stepFailed step error =>
    before.getLast? = some (stepStarted step) ∧
      ((∃ interceptor recovery,
          after.head? = some (failureRecovered interceptor error recovery)) ∨
        ∃ id completed duration, after = [pipelineCompleted id .failed completed duration])
  | failureRecovered interceptor error _ =>
    (∃ step, before.getLast? = some (stepFailed step error)) ∧
      lastEntered? before = some interceptor
  | _ => True

def AllInPlace : (before events : List Event) → Prop
  | _, [] => True
  | before, event :: after => event.InPlace before after ∧ AllInPlace (before ++ [event]) after

theorem AllInPlace.inPlace {before events : List Event} (h : AllInPlace before events)
    {front : List Event} {event : Event} {after : List Event}
    (heq : events = front ++ event :: after) : event.InPlace (before ++ front) after := by
  induction front generalizing before events with
  | nil =>
      subst heq
      simpa using h.1
  | cons e front ih =>
      subst heq
      simpa using ih h.2 rfl

theorem lastEntered?_append (events later : List Event) :
    lastEntered? (events ++ later) = (lastEntered? later).or (lastEntered? events) := by
  rw [lastEntered?, List.filterMap_append, List.getLast?_append]
  rfl

theorem lastEntered?_append_of_none {later : List Event}
    (h : ∀ event ∈ later, event.entered? = none) (events : List Event) :
    lastEntered? (events ++ later) = lastEntered? events := by
  rw [lastEntered?_append, lastEntered?, List.filterMap_eq_nil_iff.2 h]
  rfl

end Event

/-! ## The grammar -/

/-- Events between the start and the end of an execution: `current` is the
interceptor entered last, `failed` says whether a failure ended the walk, and
`completed` counts the steps that returned without failing. -/
inductive Event.Body : (current : Option String) → (failed : Bool) → (completed : Nat) →
    List Event → Prop where
  | nil {current failed} : Event.Body current failed 0 []
  /-- A step fails and nobody recovers. -/
  | failed {current} (step error) :
    Body current true 0 [.stepStarted step, .stepFailed step error]
  | completed {current failed completed rest} (step) :
    Event.Body current failed completed rest →
    Event.Body current failed (completed + 1) (.stepStarted step :: .stepCompleted step :: rest)
  | recovered {interceptor failed completed rest} (step error recovery) :
    Event.Body (some interceptor) failed completed rest →
    Event.Body (some interceptor) failed completed (.stepStarted step :: .stepFailed step error ::
      .failureRecovered interceptor error recovery :: rest)
  | entered {current failed completed rest} (interceptor mode) :
    Event.Body (some interceptor) failed completed rest →
    Event.Body current failed completed (.interceptorEntered interceptor mode :: rest)

namespace Event.Body

variable {current : Option String} {failed : Bool} {completed : Nat} {events : List Event}

theorem completions_eq (h : Event.Body current failed completed events) :
    Event.completions events = completed := by
  induction h with
  | nil => rfl
  | failed => rfl
  | completed step _ ih => simpa [Event.completions, Event.isStepCompleted, List.countP_cons]
  | recovered step error recovery _ ih =>
      simpa [Event.completions, Event.isStepCompleted, List.countP_cons]
  | entered interceptor mode _ ih =>
      simpa [Event.completions, Event.isStepCompleted, List.countP_cons]

theorem isInner (h : Event.Body current failed completed events) :
    ∀ event ∈ events, event.isInner = true := by
  induction h with
  | nil => simp
  | failed => simp [Event.isInner]
  | completed => simp_all [Event.isInner]
  | recovered => simp_all [Event.isInner]
  | entered => simp_all [Event.isInner]

/-- Events that follow the grammar are in place, and leave those after them in
place, provided that the execution ends at once when the walk has failed. -/
theorem allInPlace (h : Event.Body current failed completed events) {before after : List Event}
    (hbefore : Event.lastEntered? before = current)
    (hafter : ∀ before, Event.AllInPlace before after)
    (hfailed : failed = true → ∃ id n d, after = [.pipelineCompleted id .failed n d]) :
    Event.AllInPlace before (events ++ after) := by
  induction h generalizing before with
  | nil => simpa using hafter before
  | failed step error =>
      obtain ⟨id, n, d, rfl⟩ := hfailed rfl
      simp [Event.AllInPlace, Event.InPlace]
  | completed step _ ih =>
      refine ⟨by simp [Event.InPlace], by simp [Event.InPlace], ih ?_ hfailed⟩
      rw [List.append_assoc, Event.lastEntered?_append_of_none (by simp [Event.entered?]), hbefore]
  | recovered step error recovery _ ih =>
      refine ⟨by simp [Event.InPlace], by simp [Event.InPlace], ⟨⟨step, by simp⟩, ?_⟩,
        ih ?_ hfailed⟩
      · rw [List.append_assoc, Event.lastEntered?_append_of_none (by simp [Event.entered?]),
          hbefore]
      · rw [List.append_assoc, List.append_assoc,
          Event.lastEntered?_append_of_none (by simp [Event.entered?]), hbefore]
  | entered interceptor mode _ ih =>
      refine ⟨trivial, ih ?_ hfailed⟩
      rw [Event.lastEntered?_append]
      rfl

theorem append {completed' : Nat} {rest : List Event} {failed' : Bool}
    (h : Event.Body current failed completed events)  (hfailed : failed = false)
    (hrest : ∀ current, Event.Body current failed' completed' rest) :
    Event.Body current failed' (completed + completed') (events ++ rest) := by
  induction h with
  | nil => simpa using hrest _
  | failed => simp at hfailed
  | completed step _ ih =>
      rw [Nat.add_right_comm]
      exact .completed step (ih hfailed)
  | recovered step error recovery _ ih => exact .recovered step error recovery (ih hfailed)
  | entered interceptor mode _ ih => exact .entered interceptor mode (ih hfailed)

theorem ofCompleted_append (h : Event.Body current failed completed events) (steps : List String) :
    Event.Body current failed (steps.length + completed) (Event.ofCompleted steps ++ events) := by
  induction steps with
  | nil => simpa [Event.ofCompleted] using h
  | cons step rest ih =>
      rw [List.length_cons, Nat.add_right_comm]
      exact .completed step ih

end Event.Body

/-! ## The events of walks -/

variable [Types]

section

variable {R : Type} (segment : Nat)

theorem Step.events_walkEach (index : Nat) (steps : List (Step R)) (work : Workspace R) :
    let w := walkEach (Step.walk segment) index steps work
    ∃ done, w.completed = done.length ∧
      (w.failure = none ∧ w.events = Event.ofCompleted done ∨
        ∃ step failure, w.failure = some failure ∧
          w.events = Event.ofCompleted done ++
            [.stepStarted step, .stepFailed step failure.message]) := by
  induction steps generalizing index work with
  | nil => exact ⟨[], rfl, .inl ⟨rfl, rfl⟩⟩
  | cons s rest ih =>
      obtain ⟨-, h⟩ | ⟨-, ⟨failure, hfailure⟩, h⟩ | ⟨-, hfailure, h⟩ :=
        walkEach_cons (Step.walk segment) index s rest work
      · rw [h]
        exact ⟨[], rfl, .inl ⟨rfl, rfl⟩⟩
      · rw [h]
        cases hact : (s.act work).1 with
        | ok => simp [Step.walk_ok hact] at hfailure
        | error failure =>
            rw [Step.walk_error hact]
            exact ⟨[], rfl, .inr ⟨s.id, failure, rfl, rfl⟩⟩
      · rw [h]
        cases hact : (s.act work).1 with
        | error failure => simp [Step.walk_error hact] at hfailure
        | ok =>
            rw [Step.walk_ok hact]
            obtain ⟨done, hdone, hevents⟩ := ih (index + 1) (s.act work).2
            refine ⟨s.id :: done, ?_, ?_⟩
            · rw [Walk.completed_append, hdone, List.length_cons, Nat.add_comm]
            · rw [Walk.failure_append, Walk.events_append]
              obtain ⟨hnone, hevents⟩ | ⟨step, failure, hsome, hevents⟩ := hevents
              · exact .inl ⟨hnone, by rw [hevents]; rfl⟩
              · exact .inr ⟨step, failure, hsome, by rw [hevents]; rfl⟩

theorem events_walkRange (steps : List (Step R)) (mode : Mode) (work : Workspace R) :
    let w := walkRange segment steps mode work
    ∃ done, w.completed = done.length ∧
      (w.failure = none ∧ w.events = Event.ofCompleted done ∨
        ∃ step failure, w.failure = some failure ∧
          w.events = Event.ofCompleted done ++
            [.stepStarted step, .stepFailed step failure.message]) := by
  rw [walkRange]
  split
  · exact Step.events_walkEach segment 0 steps work
  · exact ⟨[], rfl, .inl ⟨rfl, rfl⟩⟩

namespace Interceptor

variable (i : Interceptor R) (work : Workspace R)

theorem events_walkAfter :
    (i.walkAfter segment work).events = [] ∧ (i.walkAfter segment work).completed = 0 := by
  cases hafter : (i.after work).1 with
  | ok => simp [walkAfter_ok hafter, Walk.events, Record.event?]
  | error failure => simp [walkAfter_error hafter, Walk.events, Record.event?]

theorem body_walkThrow (step : String) (mode : Mode) (cause : Failure) :
    let w := i.walkThrow segment mode cause work
    Event.Body (some i.id) w.failure.isSome w.completed
      (.stepStarted step :: .stepFailed step cause.message :: w.events) := by
  cases hthrow : (i.onThrow cause work.context).1 with
  | error failure =>
      simp only [walkThrow_error hthrow]
      exact .failed step _
  | ok recovery =>
      simp only [walkThrow_ok hthrow]
      rw [Walk.events_logging]
      refine .recovered step _ recovery ?_
      split
      · rw [Walk.completed_logging, (events_walkAfter segment i _).1,
          (events_walkAfter segment i _).2]
        exact .nil
      · exact .nil

theorem body_walkMode (steps : List (Step R)) (mode : Mode) :
    let w := i.walkMode segment steps mode work
    Event.Body (some i.id) w.failure.isSome w.completed w.events := by
  obtain ⟨done, hdone, ⟨hnone, hevents⟩ | ⟨step, cause, hsome, hevents⟩⟩ :=
    events_walkRange segment steps mode work
  · have hbody (failed : Bool) : Event.Body (some i.id) failed
        (walkRange segment steps mode work).completed
        (walkRange segment steps mode work).events := by
      rw [hdone, hevents]
      simpa using Event.Body.nil.ofCompleted_append done
    rw [walkMode_of_none hnone]
    split
    · obtain ⟨hafter, hcompleted⟩ :=
        events_walkAfter segment i (walkRange segment steps mode work).work
      simp only [Walk.completed_append, Walk.events_append, hafter, hcompleted]
      simpa using hbody _
    · exact hbody _
  · have hthrow := body_walkThrow segment i (walkRange segment steps mode work).work step mode cause
    rw [walkMode_of_failure hsome]
    simp only [Walk.completed_append, Walk.events_append, hdone, hevents, List.append_assoc]
    exact hthrow.ofCompleted_append done

theorem body_walk (steps : List (Step R)) (current : Option String) :
    let w := i.walk segment steps work
    Event.Body current w.failure.isSome w.completed w.events := by
  cases hbefore : (i.before work.context).1 with
  | error failure =>
      simp only [walk_error hbefore]
      exact .nil
  | ok mode =>
      simp only [walk_ok hbefore]
      exact .entered i.id mode (body_walkMode segment i _ steps mode)

end Interceptor

theorem Segment.body_walk (s : Segment R) (work : Workspace R) (current : Option String) :
    let w := s.walk segment work
    Event.Body current w.failure.isSome w.completed w.events := by
  cases s with
  | intercepted i steps => exact i.body_walk segment work steps current
  | plain step =>
      simp only [Segment.walk]
      cases hact : (step.act work).1 with
      | ok =>
          rw [Step.walk_ok hact]
          exact .completed step.id .nil
      | error failure =>
          rw [Step.walk_error hact]
          exact .failed step.id _

theorem body_walkEach (index : Nat) (segments : List (Segment R)) (work : Workspace R)
    (current : Option String) :
    let w := walkEach Segment.walk index segments work
    Event.Body current w.failure.isSome w.completed w.events := by
  induction segments generalizing index work current with
  | nil => exact .nil
  | cons s rest ih =>
      have hbody := s.body_walk index work current
      obtain ⟨-, h⟩ | ⟨-, -, h⟩ | ⟨-, hfailure, h⟩ := walkEach_cons Segment.walk index s rest work
      · rw [h]
        exact .nil
      · rw [h]
        exact hbody
      · rw [h]
        simp only [Walk.failure_append, Walk.completed_append, Walk.events_append]
        exact hbody.append (by rw [hfailure]; rfl) (ih (index + 1) _)

end

theorem Plan.body_run {R : Type} (p : Plan R) (work : Workspace R) :
    ∃ body, Event.Body none (p.run work).failure.isSome (p.run work).completed body ∧
      (p.run work).events = body ++
        if (p.run work).failure = none ∧ (p.run work).work.context.finished = true then
          [.pipelineStopped (p.run work).completed]
        else [] := by
  refine ⟨(walkSegments p.segments work).events, ?_, p.events_run work⟩
  rw [failure_run, completed_run]
  exact body_walkEach 0 p.segments work none

end StepWeave

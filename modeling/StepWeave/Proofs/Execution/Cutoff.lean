import StepWeave.Proofs.Execution.Sequence
import StepWeave.Proofs.Plan.Contents
import StepWeave.Proofs.Run.Narration
import StepWeave.Proofs.Text

/-!
# Pipelines cut off before the step that fails

A ready-made step that fails leaves no trace but the two events about it: where no interceptor
looks after it, the pipeline without it and what comes after it does all that the failing one
does, and succeeds (`Execution.failing_step_has_no_effect`).
-/

namespace StepWeave

section

variable [Types] {R : Type}

/-! ## Plans without interceptors -/

namespace Plan

variable {steps : List (Step R)} {work start : Workspace R} {k : Nat}

theorem offset_ofSteps (hk : k ≤ steps.length) : (ofSteps steps).offset k = k := by
  have htake : ((ofSteps steps).segments.take k).flatMap Segment.steps = steps.take k := by
    rw [ofSteps, ← List.map_take]
    exact steps_ofSteps (steps.take k)
  rw [offset, htake, List.length_take_of_le hk]

theorem getElem?_segments_ofSteps (steps : List (Step R)) (k : Nat) :
    (ofSteps steps).segments[k]? = steps[k]?.map .plain :=
  List.getElem?_map

/-- The calls of such a plan are those of its steps, each in its own segment. -/
theorem exists_step_of_mem_calls_ofSteps {c : Call R}
    (hc : c ∈ ((ofSteps steps).run work).calls) :
    ∃ s, steps[c.segment]? = some s ∧ c = s.call c.segment 0 c.entry := by
  obtain ⟨part, hpart, hmakes⟩ := makes_of_mem_calls hc
  rw [getElem?_segments_ofSteps, Option.map_eq_some_iff] at hpart
  obtain ⟨s, hs, rfl⟩ := hpart
  generalize c.segment = k at hs hmakes
  cases hmakes with
  | plain => exact ⟨s, hs, rfl⟩

/-- Without a failure and on a context that is never finished all steps complete. -/
theorem walkEach_plain {index : Nat}
    (hfailure : (walkEach Segment.walk index (steps.map .plain) work).failure = none)
    (hunfinished :
      (walkEach Segment.walk index (steps.map .plain) work).work.context.finished = false) :
    (walkEach Segment.walk index (steps.map .plain) work).events =
        Event.ofCompleted (steps.map (·.id)) ∧
      (walkEach Segment.walk index (steps.map .plain) work).completed = steps.length := by
  induction steps generalizing index work with
  | nil => exact ⟨rfl, rfl⟩
  | cons s rest ih =>
      rw [List.map_cons] at hfailure hunfinished ⊢
      obtain ⟨hfinished, h⟩ | ⟨-, ⟨failure, hsome⟩, h⟩ | ⟨-, hnone, h⟩ :=
        walkEach_cons Segment.walk index (.plain s) (rest.map .plain) work
      · rw [h, hfinished] at hunfinished
        contradiction
      · rw [h, hsome] at hfailure
        contradiction
      · rw [h] at hfailure hunfinished ⊢
        obtain ⟨hevents, hcompleted⟩ := ih hfailure hunfinished
        cases hact : (s.act work).1 with
        | error failure => simp [Segment.walk, Step.walk_error hact] at hnone
        | ok =>
            rw [Walk.events_append, Walk.completed_append, hevents, hcompleted]
            refine ⟨?_, ?_⟩
            · simp [Segment.walk, Step.walk_ok hact, Walk.events, List.filterMap_cons,
                Record.event?, Event.ofCompleted]
            · simp [Segment.walk, Step.walk_ok hact, Nat.add_comm]

/-- Up to a step that is reached the run is that of the plan cut off before it. -/
theorem run_ofSteps_take (h : (ofSteps steps).Reaches work k start) :
    (ofSteps (steps.take k)).run work = walkSegments ((ofSteps steps).segments.take k) work := by
  obtain ⟨-, rfl, hunfinished⟩ := h
  have hsegments : (ofSteps (steps.take k)).segments = (ofSteps steps).segments.take k :=
    List.map_take
  rw [run_eq, hsegments, if_neg]
  simp [hunfinished]

theorem run_ofSteps_of_reaches (h : (ofSteps steps).Reaches work k start)
    (hk : k ≤ steps.length) :
    ((ofSteps (steps.take k)).run work).failure = none ∧
      ((ofSteps (steps.take k)).run work).work = start ∧
      ((ofSteps (steps.take k)).run work).events =
        Event.ofCompleted ((steps.map (·.id)).take k) ∧
      ((ofSteps (steps.take k)).run work).completed = k := by
  have hrun := run_ofSteps_take h
  obtain ⟨hfailure, rfl, hunfinished⟩ := h
  have hsegments : (ofSteps steps).segments.take k = (steps.take k).map .plain :=
    List.map_take.symm
  rw [hsegments] at hrun hfailure hunfinished
  obtain ⟨hevents, hcompleted⟩ := walkEach_plain hfailure hunfinished
  rw [hrun, hsegments, ← List.map_take]
  exact ⟨hfailure, rfl, hevents, hcompleted.trans (List.length_take_of_le hk)⟩

/-- A run that fails at a step that it reaches is the one cut off before the step, and the
walk of the step. -/
theorem run_ofSteps_of_failure {s : Step R} {cause : Failure} (hs : steps[k]? = some s)
    (h : (ofSteps steps).Reaches work k start) (hact : (s.act start).1 = .error cause) :
    (ofSteps steps).run work =
      ((ofSteps (steps.take k)).run work).append (s.walk k 0 start) := by
  have hsegment : (ofSteps steps).segments[k]? = some (.plain s) := by
    rw [getElem?_segments_ofSteps, hs]
    rfl
  have hfailure : ((Segment.plain s).walk k start).failure = some cause := by
    rw [Segment.walk, Step.walk_error hact]
  rw [run_ofSteps_take h, run_eq_of_reaches_failure hsegment h hfailure]
  rfl

/-- A step call that fails is made at the position of its step, which is reached. -/
theorem exists_reaches_of_stepFails {c : Call R} {cause : Failure} {position : String × Nat}
    (hc : c ∈ ((ofSteps steps).run work).calls) (hfails : c.StepFails cause)
    (hplace : (ofSteps steps).place? c = some position) :
    ∃ s start, steps[position.2]? = some s ∧ (ofSteps steps).Reaches work position.2 start ∧
      (s.act start).1 = .error cause := by
  obtain ⟨s, hs, heq⟩ := exists_step_of_mem_calls_ofSteps hc
  obtain ⟨part, start, hpart, hreaches⟩ := exists_reaches_of_mem_calls hc
  have hmem := mem_calls_walk_of_segment hpart hreaches hc rfl
  rw [getElem?_segments_ofSteps, hs] at hpart
  obtain rfl : Segment.plain s = part := Option.some.inj hpart
  rw [Segment.walk, Step.calls_walk, List.mem_singleton] at hmem
  obtain ⟨hlt, -⟩ := List.getElem?_eq_some_iff.1 hs
  have hposition : position.2 = c.segment := by
    rw [heq] at hplace
    simp only [place?, Step.call, Option.some.injEq] at hplace
    rw [← hplace]
    exact offset_ofSteps (Nat.le_of_lt hlt)
  rw [hposition]
  rw [hmem] at hfails
  exact ⟨s, start, hs, hreaches, Step.stepFails_call_iff.1 hfails⟩

/-- What such a run fails with is the failure of the step called last. -/
theorem exists_stepFails_of_failure {cause : Failure}
    (h : ((ofSteps steps).run work).failure = some cause) :
    ∃ front c id k, ((ofSteps steps).run work).calls = front ++ [c] ∧ c.StepFails cause ∧
      (ofSteps steps).place? c = some (id, k) := by
  obtain ⟨hnone, -⟩ | ⟨front, c, failure, hcalls, -, hescape, hsome⟩ :=
    (ofSteps steps).endsBy_run work
  · rw [h] at hnone
    contradiction
  · obtain rfl : failure = cause := Option.some.inj (hsome.symm.trans h)
    obtain ⟨s, hs, heq⟩ := exists_step_of_mem_calls_ofSteps (c := c) (by rw [hcalls]; simp)
    have hsegment : (ofSteps steps).segments[c.segment]? = some (.plain s) := by
      rw [getElem?_segments_ofSteps, hs]
      rfl
    have hfailure : c.failure? = some failure := by
      rwa [escape?, hsegment] at hescape
    rw [heq] at hfailure
    refine ⟨front, c, s.id, (ofSteps steps).offset c.segment, hcalls, ?_, ?_⟩
    · rw [heq]
      exact ⟨0, s.id, Step.callback_call hfailure⟩
    · rw [heq]
      rfl

end Plan

/-- The variant with the first `k` of the woven steps alone. -/
def Variant.cutOff (v : Variant R) (woven : List (Step R)) (k : Nat) : Variant R where
  name := v.name
  layer := v.layer
  steps := woven.take k

namespace Execution

/-- The execution of the plan `p` fails with the failure of the step at the position `k`,
which is the last thing called. -/
def FailsAt (e : Execution R) (p : Plan R) (k : Nat) (cause : Failure) : Prop :=
  e.failure = some cause ∧ ∃ front c id, e.calls = front ++ [c] ∧ c.StepFails cause ∧
    p.place? c = some (id, k)

end Execution

end

/-! ## Pipelines of ready-made steps -/

/-- The variant has nothing but ready-made steps, which run under no interceptor. -/
structure Variant.IsBareText (v : Variant String) : Prop where
  steps : ∀ s ∈ v.steps, ∃ t : TextStep, t.toStep = s
  extensions : ∀ s ∈ v.extensions.values, ∃ t : TextStep, t.toStep = s
  interceptors : v.interceptors = []

namespace Execution

variable {v : Variant String} {p : Plan String} {id id' : ExecutionId} {name name' : String}
  {layer layer' : Option String} {work : Workspace String} {e e' : Execution String} {k : Nat}
  {cause : Failure}

theorem build_eq_ofSteps (hv : v.IsBareText) (hbuild : Plan.build v = .ok p) :
    ∃ woven, v.weave = .ok woven ∧ p = Plan.ofSteps woven := by
  have hweave := Plan.steps_of_build hbuild
  have hplain := Plan.build_of_interceptors_nil hweave hv.interceptors
  exact ⟨p.steps, hweave, Except.ok.inj (hbuild.symm.trans hplain)⟩

theorem exists_failsAt (hv : v.IsBareText) (hbuild : Plan.build v = .ok p)
    (he : Of (Plan.build v) id name layer work e) (hfailure : e.failure = some cause) :
    ∃ k, e.FailsAt p k cause := by
  obtain ⟨woven, -, rfl⟩ := build_eq_ofSteps hv hbuild
  obtain ⟨front, c, step, k, hcalls, hfails, hplace⟩ := Plan.exists_stepFails_of_failure
    ((he.outcome_of_ok hbuild).1.symm.trans hfailure)
  exact ⟨k, hfailure, front, c, step, (he.calls_of_ok hbuild).trans hcalls, hfails, hplace⟩

/-- The executions of a pipeline that fails at the position `k` and of the one cut off there. -/
theorem FailsAt.cutOff (hfails : e.FailsAt p k cause) (hv : v.IsBareText)
    (hbuild : Plan.build v = .ok p) (he : Of (Plan.build v) id name layer work e)
    (he' : Of (Plan.build (v.cutOff p.steps k)) id' name' layer' work e') :
    e'.failure = none ∧ e'.work = e.work ∧
    ∃ s duration duration', p.steps[k]? = some s ∧
      e.events = .pipelineStarted id name layer p.total ::
        (Event.ofCompleted (p.stepIds.take k) ++
          [.stepStarted s.id, .stepFailed s.id cause.message]) ++
        [.pipelineCompleted id .failed k (some duration)] ∧
      e'.events = .pipelineStarted id' name' layer' k ::
        Event.ofCompleted (p.stepIds.take k) ++
        [.pipelineCompleted id' .completed k (some duration')] := by
  obtain ⟨woven, hweave, rfl⟩ := build_eq_ofSteps hv hbuild
  rw [Plan.steps_ofSteps] at he' ⊢
  have hcut : Plan.build (v.cutOff woven k) = .ok (Plan.ofSteps (woven.take k)) :=
    Plan.build_of_interceptors_nil rfl rfl
  have hids : (Plan.ofSteps woven).stepIds = woven.map (·.id) :=
    congrArg (List.map Step.id) (Plan.steps_ofSteps woven)
  -- The last call is that of the failing step, so the run reaches the step.
  obtain ⟨-, front, c, step, hcalls, hstep, hplace⟩ := hfails
  have hc : c ∈ ((Plan.ofSteps woven).run work).calls := by
    rw [← he.calls_of_ok hbuild, hcalls]
    simp
  obtain ⟨s, start, hs, hreaches, hact⟩ := Plan.exists_reaches_of_stepFails hc hstep hplace
  obtain ⟨hk, -⟩ := List.getElem?_eq_some_iff.1 hs
  obtain ⟨hnone, hwork, hevents, hcompleted⟩ :=
    Plan.run_ofSteps_of_reaches hreaches (Nat.le_of_lt hk)
  have hrun := Plan.run_ofSteps_of_failure hs hreaches hact
  -- It is one of the ready-made steps, so it leaves the workspace that it got.
  obtain ⟨t, rfl⟩ : ∃ t : TextStep, t.toStep = s :=
    (Variant.mem_of_weave hweave (List.mem_of_getElem? hs)).elim (hv.steps s) (hv.extensions s)
  have hkept : (t.toStep.act start).2 = start := TextStep.act_of_error hact
  rw [Step.walk_error hact, hkept] at hrun
  obtain ⟨-, hend, duration, htold⟩ := he.outcome_of_ok hbuild
  obtain ⟨hfailure', hend', duration', htold'⟩ := he'.outcome_of_ok hcut
  rw [hrun] at hend htold
  refine ⟨hfailure'.trans hnone, hend'.trans (hwork.trans hend.symm), t.toStep, duration,
    duration', hs, ?_, ?_⟩
  · rw [htold, Walk.events_append, hevents, hids]
    simp [Walk.events, Record.event?, List.filterMap_cons, Status.ofFailure, hcompleted]
  · rw [htold', hevents, hids, hnone, hcompleted, Plan.total_ofSteps,
      List.length_take_of_le (Nat.le_of_lt hk)]
    rfl

/-- Whatever is executed of ready-made steps without interceptors, if it fails then it fails
at a step, and what comes before that step succeeds when it is executed alone, with the same
workspace in the end and the same events up to that of the start of the step. -/
theorem failing_step_has_no_effect (hv : v.IsBareText) (hbuild : Plan.build v = .ok p)
    (he : Of (Plan.build v) id name layer work e) (hfailure : e.failure = some cause) :
    (∃ k, e.FailsAt p k cause) ∧
    ∀ k, e.FailsAt p k cause → ∀ {id' : ExecutionId} {name' : String} {layer' : Option String}
      {e' : Execution String}, Of (Plan.build (v.cutOff p.steps k)) id' name' layer' work e' →
      e'.failure = none ∧ e'.work = e.work ∧
      ∃ s duration duration', p.steps[k]? = some s ∧
        e.events = .pipelineStarted id name layer p.total ::
          (Event.ofCompleted (p.stepIds.take k) ++
            [.stepStarted s.id, .stepFailed s.id cause.message]) ++
          [.pipelineCompleted id .failed k (some duration)] ∧
        e'.events = .pipelineStarted id' name' layer' k ::
          Event.ofCompleted (p.stepIds.take k) ++
          [.pipelineCompleted id' .completed k (some duration')] :=
  ⟨exists_failsAt hv hbuild he hfailure, fun _ hfails _ _ _ _ he' =>
    hfails.cutOff hv hbuild he he'⟩

/-- A pipeline that reads an entry which its context may lack. -/
def reader : Variant String where
  name := "reader"
  steps := [TextStep.toStep ⟨"open", .append "o"⟩, TextStep.toStep ⟨"read", .appendKey "user"⟩,
    TextStep.toStep ⟨"close", .append "c"⟩]
  extensions := .ofList [("after.open", TextStep.toStep ⟨"greet", .append "g"⟩)]

theorem isBareText_reader : reader.IsBareText where
  steps := by
    intro s hs
    simp only [reader, List.mem_cons, List.not_mem_nil, or_false] at hs
    obtain rfl | rfl | rfl := hs <;> exact ⟨_, rfl⟩
  extensions := by
    intro s hs
    obtain rfl : s = TextStep.toStep ⟨"greet", .append "g"⟩ := List.mem_singleton.1 hs
    exact ⟨_, rfl⟩
  interceptors := rfl

theorem exists_failsAt_reader : ∃ p, Plan.build reader = .ok p ∧
    p.stepIds = ["open", "greet", "read", "close"] ∧
    (reader.execute default default ⟨.empty, ""⟩).FailsAt p 2 (.missingValue "user") := by
  have hweave : reader.weave = .ok [TextStep.toStep ⟨"open", .append "o"⟩,
      TextStep.toStep ⟨"greet", .append "g"⟩, TextStep.toStep ⟨"read", .appendKey "user"⟩,
      TextStep.toStep ⟨"close", .append "c"⟩] := rfl
  have hbuild := Plan.build_of_interceptors_nil hweave rfl
  have he := Of.variant reader default default ⟨.empty, ""⟩
  refine ⟨_, hbuild, rfl, ?_, [_, _], _, _, he.calls_of_ok hbuild, ⟨_, _, rfl⟩, rfl⟩
  rw [(he.outcome_of_ok hbuild).1]
  rfl

theorem failing_step_has_no_effect_reader :
    reader.IsBareText ∧ ∃ p, Plan.build reader = .ok p ∧
      p.stepIds = ["open", "greet", "read", "close"] ∧
      (reader.execute default default ⟨.empty, ""⟩).FailsAt p 2 (.missingValue "user") ∧
      ((reader.cutOff p.steps 2).execute default default ⟨.empty, ""⟩).failure = none ∧
      ((reader.cutOff p.steps 2).execute default default ⟨.empty, ""⟩).work =
        (reader.execute default default ⟨.empty, ""⟩).work := by
  obtain ⟨p, hbuild, hids, hfails⟩ := exists_failsAt_reader
  obtain ⟨-, hcut⟩ := failing_step_has_no_effect isBareText_reader hbuild
    (.variant reader default default _) hfails.1
  obtain ⟨hsuccess, hwork, -⟩ :=
    hcut 2 hfails (.variant (reader.cutOff p.steps 2) default default _)
  exact ⟨isBareText_reader, p, hbuild, hids, hfails, hsuccess, hwork⟩

end Execution

end StepWeave

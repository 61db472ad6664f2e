import StepWeave.Proofs.Run.Abort
import StepWeave.Proofs.Text

/-!
# Plans of text steps and interceptors

The run of such a plan fails with what is passed on of the failure of a step
(`Plan.failure_ofText_iff`), and keeps a context of texts (`Plan.textual_ofText`).
-/

namespace StepWeave

/-! ## Text segments -/

/-- A segment of text steps, one by itself or a range under a text interceptor. -/
inductive TextSegment where
  | plain (step : TextStep)
  | intercepted (interceptor : TextInterceptor) (steps : List TextStep)

namespace TextSegment

def steps : TextSegment → List TextStep
  | plain step => [step]
  | intercepted _ steps => steps

def toSegment : TextSegment → Segment String
  | plain step => .plain step.toStep
  | intercepted i steps => .intercepted i.toInterceptor (steps.map TextStep.toStep)

/-- What goes on of the failure of a step of the segment. -/
def passOn (cause : Failure) : TextSegment → Option Failure
  | plain _ => some cause
  | intercepted i _ => i.passOn cause

theorem eq_of_passOn {part : TextSegment} {cause e : Failure} (h : part.passOn cause = some e) :
    e = cause ∨ ∃ i steps message key, part = .intercepted i steps ∧
      i.kind = .recover .translate message key ∧ e = .stepFailed i.id (message.getD "") := by
  cases part with
  | plain s => exact .inl (Option.some.inj h).symm
  | intercepted i steps =>
      obtain ⟨id, start, stop, kind⟩ := i
      cases kind with
      | record beforeKey afterKey => exact .inl (Option.some.inj h).symm
      | skip mode text => exact .inl (Option.some.inj h).symm
      | recover onError message key =>
          cases onError with
          | resume => cases h
          | skipAfter => cases h
          | translate =>
              exact .inr ⟨_, steps, message, key, rfl, rfl, (Option.some.inj h).symm⟩

variable {Q : Workspace String → Workspace String → Prop}

theorem respects (hsteps : ∀ s : TextStep, s.toStep.Respects Q)
    (hinterceptors : ∀ i : TextInterceptor, i.toInterceptor.Respects Q) (part : TextSegment) :
    part.toSegment.Respects Q := by
  cases part with
  | plain step => exact hsteps step
  | intercepted i steps =>
      exact ⟨hinterceptors i, List.forall_mem_map.2 fun step _ => hsteps step⟩

end TextSegment

/-- A step call of a segment that fails is that of one of its steps. -/
theorem TextSegment.exists_step_of_makes {part : TextSegment} {k : Nat} {c : Call String}
    {cause : Failure} (h : part.toSegment.Makes k c) (hfails : c.StepFails cause) :
    ∃ s ∈ part.steps, ∃ position, c = s.toStep.call k position c.entry ∧
      (s.toStep.act c.entry).1 = .error cause := by
  cases part with
  | plain s =>
      cases h with
      | plain => exact ⟨s, List.mem_singleton_self s, 0, rfl, Step.stepFails_call_iff.1 hfails⟩
  | intercepted i steps =>
      cases h with
      | before => exact absurd hfails (Call.not_stepFails rfl)
      | @wrapped _ _ n step _ hstep =>
          obtain ⟨s, hs, rfl⟩ := List.mem_map.1 (List.mem_of_getElem? hstep)
          exact ⟨s, hs, n, rfl, Step.stepFails_call_iff.1 hfails⟩
      | onThrow => exact absurd hfails (Call.not_stepFails rfl)
      | after => exact absurd hfails (Call.not_stepFails rfl)

namespace Plan

def ofText (parts : List TextSegment) : Plan String where
  segments := parts.map TextSegment.toSegment

variable {parts : List TextSegment} {work : Workspace String} {c : Call String}
  {cause : Failure}

theorem getElem?_segments_ofText (parts : List TextSegment) (k : Nat) :
    (ofText parts).segments[k]? = parts[k]?.map TextSegment.toSegment :=
  List.getElem?_map

theorem makes_of_mem_calls_ofText (hc : c ∈ ((ofText parts).run work).calls) :
    ∃ part, parts[c.segment]? = some part ∧ part.toSegment.Makes c.segment c := by
  obtain ⟨s, hs, hmakes⟩ := makes_of_mem_calls hc
  rw [getElem?_segments_ofText, Option.map_eq_some_iff] at hs
  obtain ⟨part, hpart, rfl⟩ := hs
  exact ⟨part, hpart, hmakes⟩

/-- On a context of texts all calls find one, and the run leaves one. -/
theorem textual_ofText (parts : List TextSegment) (h : work.context.Textual) :
    (∀ c ∈ ((ofText parts).run work).calls, c.entry.context.Textual) ∧
      ((ofText parts).run work).work.context.Textual := by
  have hrespects : ∀ s ∈ (ofText parts).segments, s.Respects KeepsTexts :=
    List.forall_mem_map.2 fun part _ =>
      part.respects TextStep.respects_keepsTexts TextInterceptor.respects_keepsTexts
  exact ((ofText parts).relay_run work).invariant (fun w => w.context.Textual) h
    fun c hc => respects_call hrespects hc

theorem segment_of_part {k : Nat} {part : TextSegment} (h : parts[k]? = some part) :
    (ofText parts).segments[k]? = some part.toSegment := by
  rw [getElem?_segments_ofText, h]
  rfl

theorem escape?_ofText_plain {s : TextStep} (h : parts[c.segment]? = some (.plain s)) :
    (ofText parts).escape? c = c.failure? := by
  rw [escape?, segment_of_part h]
  rfl

theorem escape?_ofText_intercepted {i : TextInterceptor} {steps : List TextStep}
    (h : parts[c.segment]? = some (.intercepted i steps)) :
    (ofText parts).escape? c = c.thrown? := by
  rw [escape?, segment_of_part h]
  rfl

/-- A failure that escapes is what is passed on of that of a step of the segment. -/
theorem exists_fails_of_escape {part : TextSegment} {e : Failure}
    (hc : c ∈ ((ofText parts).run work).calls) (hpart : parts[c.segment]? = some part)
    (hescape : (ofText parts).escape? c = some e) :
    ∃ d ∈ ((ofText parts).run work).calls, d.segment = c.segment ∧
      ∃ cause, d.StepFails cause ∧ part.passOn cause = some e := by
  obtain ⟨part', hpart', hmakes⟩ := makes_of_mem_calls_ofText hc
  obtain rfl : part = part' := Option.some.inj (hpart.symm.trans hpart')
  cases part with
  | plain s =>
      rw [escape?_ofText_plain hpart] at hescape
      refine ⟨c, hc, rfl, e, ?_, rfl⟩
      generalize c.segment = k at hmakes
      cases hmakes with
      | plain => exact ⟨0, s.id, Step.callback_call hescape⟩
  | intercepted i steps =>
      rw [escape?_ofText_intercepted hpart] at hescape
      generalize hk : c.segment = k at hmakes
      cases hmakes with
      | before =>
          have hnone : some e = none := hescape.symm.trans (i.failure?_beforeCall k _)
          contradiction
      | wrapped => contradiction
      | @onThrow _ _ cause start =>
          obtain ⟨front, d, rest, -, -, hcalls, hsegment, -, hstep⟩ :=
            (exists_step_of_throw hc rfl).1
          have hpass : i.passOn cause = some e :=
            (i.failure?_throwCall k cause start).symm.trans hescape
          exact ⟨d, by simp [hcalls], hsegment.trans hk, cause, hstep, hpass⟩
      | after =>
          have hnone : some e = none := hescape.symm.trans (i.failure?_afterCall k _)
          contradiction

/-- A step that fails under an interceptor hands its failure to it. -/
theorem exists_throw_of_stepFails {i : TextInterceptor} {steps : List TextStep}
    (hc : c ∈ ((ofText parts).run work).calls)
    (hpart : parts[c.segment]? = some (.intercepted i steps)) (hfails : c.StepFails cause) :
    ∃ start, (ofText parts).Reaches work c.segment start ∧ ∃ front mode,
      (i.toInterceptor.before start.context).1 = .ok mode ∧
      ((TextSegment.intercepted i steps).toSegment.walk c.segment start).calls =
        front ++ c :: (i.toInterceptor.walkThrow c.segment mode cause c.exit).calls ∧
      ((TextSegment.intercepted i steps).toSegment.walk c.segment start).failure =
        (i.toInterceptor.walkThrow c.segment mode cause c.exit).failure ∧
      ((TextSegment.intercepted i steps).toSegment.walk c.segment start).work =
        (i.toInterceptor.walkThrow c.segment mode cause c.exit).work := by
  obtain ⟨s, start, hs, hreaches⟩ := exists_reaches_of_mem_calls hc
  have hsegment := segment_of_part hpart
  obtain rfl := Option.some.inj (hs.symm.trans hsegment)
  exact ⟨start, hreaches, Interceptor.walk_of_step_failure
    (mem_calls_walk_of_segment hsegment hreaches hc rfl) hfails⟩

/-- A run fails with what is passed on of the failure of one of its steps, and only so. -/
theorem failure_ofText_iff (parts : List TextSegment) (work : Workspace String) (e : Failure) :
    ((ofText parts).run work).failure = some e ↔
      ∃ c ∈ ((ofText parts).run work).calls, ∃ part cause,
        parts[c.segment]? = some part ∧ c.StepFails cause ∧ part.passOn cause = some e := by
  constructor
  · intro he
    obtain ⟨c, hc, hescape⟩ := ((ofText parts).endsBy_run work).failure_eq_some_iff.1 he
    obtain ⟨part, hpart, hmakes⟩ := makes_of_mem_calls_ofText hc
    obtain ⟨d, hd, hsegment, cause, hfails, hpass⟩ := exists_fails_of_escape hc hpart hescape
    exact ⟨d, hd, part, cause, hsegment ▸ hpart, hfails, hpass⟩
  · rintro ⟨c, hc, part, cause, hpart, hfails, hpass⟩
    cases part with
    | plain s =>
        have hescape : (ofText parts).escape? c = some e := by
          rw [escape?_ofText_plain hpart, hfails.failure?]
          exact hpass
        exact ((ofText parts).endsBy_run work).failure_eq_some_iff.2 ⟨c, hc, hescape⟩
    | intercepted i steps =>
        obtain ⟨start, hreaches, front, mode, -, -, hfailure, -⟩ :=
          exists_throw_of_stepFails hc hpart hfails
        rw [i.failure_walkThrow] at hfailure
        exact (run_of_reaches_failure (segment_of_part hpart) hreaches
          (hfailure.trans hpass)).2.1

end Plan

end StepWeave

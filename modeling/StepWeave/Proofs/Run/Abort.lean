import StepWeave.Proofs.Execution.Planned
import StepWeave.Proofs.Plan.Partition
import StepWeave.Proofs.Run.Origin
import StepWeave.ValueType

/-!
# How a run fails

The failure of a wrapped step goes to its interceptor (`Interceptor.walk_of_step_failure`).
Every other failure of a call escapes: it ends the run, which fails with just that failure
and leaves the workspace as the call left it (`Plan.Aborts`).
-/

namespace StepWeave

section

variable [Types] {R : Type}

/-! ## Failures that escape -/

def Callback.isStep : Callback → Bool
  | step .. => true
  | _ => false

def Call.thrown? (c : Call R) : Option Failure :=
  if c.callback.isStep then none else c.failure?

/-- The failure by which a call ends the run of a plan, if it does. -/
def Plan.escape? (p : Plan R) (c : Call R) : Option Failure :=
  match p.segments[c.segment]? with
  | some (.intercepted _ _) => c.thrown?
  | _ => c.failure?

theorem Plan.escape?_eq_some_iff {p : Plan R} {c : Call R} {e : Failure} :
    p.escape? c = some e ↔
      ((∀ i steps, p.segments[c.segment]? ≠ some (.intercepted i steps)) ∧
        ∃ position step, c.callback = .step position step (.error e)) ∨
      (∃ id cause, c.callback = .onThrow id cause (.error e)) ∨
      ∃ id, c.callback = .before id (.error e) ∨ c.callback = .after id (.error e) := by
  obtain ⟨segment, callback, entry, exit, pause⟩ := c
  rcases callback with ⟨_, _, _ | _⟩ | ⟨_, _ | _⟩ | ⟨_, _, _ | _⟩ | ⟨_, _ | _⟩ <;>
    simp only [escape?, Call.thrown?, Call.failure?, Callback.failure?, Callback.isStep] <;>
    split <;> simp_all

/-- How the calls of a run of `p` decide its result and the workspace that it leaves. -/
structure Plan.Aborts (p : Plan R) (calls : List (Call R)) (failure : Option Failure)
    (work : Workspace R) : Prop where
  makes : ∀ c ∈ calls, p.Makes c
  failure_iff : ∀ e, failure = some e ↔ ∃ c ∈ calls, p.escape? c = some e
  /-- Nothing is called once a failure has escaped, and nothing changes. -/
  ends : ∀ front c rest, calls = front ++ c :: rest → p.escape? c ≠ none →
    rest = [] ∧ work = c.exit
  /-- An interceptor is called with the failure of the wrapped step before. -/
  thrown : ∀ c ∈ calls, ∀ id cause answer, c.callback = .onThrow id cause answer →
    ∃ front d rest i steps, calls = front ++ d :: c :: rest ∧
      d.segment = c.segment ∧ p.segments[c.segment]? = some (.intercepted i steps) ∧
      ∃ position step, d.callback = .step position step (.error cause)
  /-- Failures of steps that are all recovered from do not fail the run. -/
  recovers :
    (∀ c ∈ calls, ∀ position step cause, c.callback = .step position step (.error cause) →
      ∃ d ∈ calls, d.segment = c.segment ∧
        ∃ id cause' recovery, d.callback = .onThrow id cause' (.ok recovery)) →
    (∀ c ∈ calls, ∀ id e, c.callback ≠ .before id (.error e) ∧ c.callback ≠ .after id (.error e)) →
    failure = none

theorem Step.callback_call {segment position : Nat} {s : Step R} {work : Workspace R}
    {cause : Failure} (h : (s.call segment position work).failure? = some cause) :
    (s.call segment position work).callback = .step position s.id (.error cause) := by
  cases hact : (s.act work).1 with
  | ok =>
      rw [Step.call, hact] at h
      contradiction
  | error failure =>
      rw [Step.call, hact] at h ⊢
      cases h
      rfl

/-! ## The last call of a failing run -/

section

variable {segment : Nat} {i : Interceptor R} {steps : List (Step R)} {mode : Mode}
  {work : Workspace R}

theorem thrown?_of_mem_calls_walkRange {c : Call R}
    (h : c ∈ (walkRange segment steps mode work).calls) : c.thrown? = none := by
  obtain ⟨n, s, -, -, -, heq⟩ := exists_step_of_mem_calls_walkRange h
  rw [heq]
  rfl

namespace Interceptor

theorem endsBy_walkAfter (segment : Nat) (i : Interceptor R) (work : Workspace R) :
    (i.walkAfter segment work).EndsBy Call.thrown? :=
  .single (i.calls_walkAfter segment work) (i.failure_walkAfter segment work)

theorem endsBy_walkThrow (segment : Nat) (i : Interceptor R) (mode : Mode) (cause : Failure)
    (work : Workspace R) : (i.walkThrow segment mode cause work).EndsBy Call.thrown? := by
  cases h : (i.onThrow cause work.context).1 with
  | error failure =>
      rw [walkThrow_error h]
      refine .single (c := i.throwCall segment cause work) rfl ?_
      rw [throwCall, h]
      rfl
  | ok recovery =>
      rw [walkThrow_ok h]
      have hthrow : (i.throwCall segment cause work).thrown? = none := by
        rw [throwCall, h]
        rfl
      refine .of_calls_eq (Walk.calls_logging _ _) rfl ?_ ?_
      · simpa [List.filterMap_cons, Record.call?] using hthrow
      · split
        · exact i.endsBy_walkAfter segment _
        · exact .inl ⟨rfl, by simp⟩

theorem endsBy_walkMode (segment : Nat) (i : Interceptor R) (steps : List (Step R)) (mode : Mode)
    (work : Workspace R) : (i.walkMode segment steps mode work).EndsBy Call.thrown? := by
  have hrange (c : Call R) (hc : c ∈ (walkRange segment steps mode work).calls) :
      c.thrown? = none := thrown?_of_mem_calls_walkRange hc
  cases h : (walkRange segment steps mode work).failure with
  | some cause =>
      rw [walkMode_of_failure h]
      exact .append hrange (i.endsBy_walkThrow segment mode cause _)
  | none =>
      rw [walkMode_of_none h]
      split
      · exact .append hrange (i.endsBy_walkAfter segment _)
      · exact .inl ⟨h, hrange⟩

theorem endsBy_walk (segment : Nat) (i : Interceptor R) (steps : List (Step R))
    (work : Workspace R) : (i.walk segment steps work).EndsBy Call.thrown? := by
  cases h : (i.before work.context).1 with
  | error failure =>
      rw [walk_error h]
      refine .single (c := i.beforeCall segment work) rfl ?_
      rw [beforeCall, h]
      rfl
  | ok mode =>
      rw [walk_ok h]
      have hbefore : (i.beforeCall segment work).thrown? = none := by
        rw [beforeCall, h]
        rfl
      refine .of_calls_eq (Walk.calls_logging _ _) rfl ?_ (i.endsBy_walkMode segment steps mode _)
      simpa [List.filterMap_cons, Record.call?] using hbefore

end Interceptor

end

/-! ## Failing steps under an interceptor -/

section

variable {segment : Nat} {i : Interceptor R} {steps : List (Step R)} {mode : Mode}
  {work : Workspace R} {c : Call R} {cause : Failure}

/-- The call is that of a step which fails with `cause`. -/
def Call.StepFails (c : Call R) (cause : Failure) : Prop :=
  ∃ position id, c.callback = .step position id (.error cause)

theorem Call.StepFails.failure? (h : c.StepFails cause) : c.failure? = some cause := by
  obtain ⟨position, id, hstep⟩ := h
  rw [Call.failure?, hstep]
  rfl

theorem Call.not_stepFails (h : c.callback.isStep = false) : ¬c.StepFails cause := by
  rintro ⟨position, id, hstep⟩
  rw [hstep] at h
  contradiction

theorem Step.stepFails_call_iff {position : Nat} {s : Step R} :
    (s.call segment position work).StepFails cause ↔ (s.act work).1 = .error cause := by
  constructor
  · rintro ⟨position', id', hstep⟩
    injection hstep
  · intro hact
    exact ⟨position, s.id, by rw [call, hact]⟩

theorem walkRange_of_failure (hc : c ∈ (walkRange segment steps mode work).calls)
    (hcause : c.failure? = some cause) :
    (walkRange segment steps mode work).failure = some cause ∧
      (walkRange segment steps mode work).work = c.exit ∧
      ∃ front, (walkRange segment steps mode work).calls = front ++ [c] := by
  have hrelay := relay_walkRange segment steps mode work
  obtain ⟨-, hnone⟩ | ⟨front, last, failure, hcalls, hfront, hlast, hfailure⟩ :=
    Walk.endsBy_walkRange segment steps mode work
  · rw [hnone c hc] at hcause
    contradiction
  · rw [hcalls, List.mem_append, List.mem_singleton] at hc
    obtain hc | rfl := hc
    · rw [hfront c hc] at hcause
      contradiction
    · rw [hlast, Option.some.injEq] at hcause
      rw [hfailure, hcause]
      exact ⟨rfl, (hcalls ▸ hrelay).finish_eq_of_concat, front, hcalls⟩

namespace Interceptor

theorem isStep_of_mem_walkThrow
    (hc : c ∈ (i.walkThrow segment mode cause work).calls) : c.callback.isStep = false := by
  rw [calls_walkThrow, List.mem_cons] at hc
  obtain rfl | hc := hc
  · rfl
  · split at hc
    · rw [List.mem_singleton.1 hc]
      rfl
    · contradiction

theorem mem_walkRange_of_step (hc : c ∈ (i.walkMode segment steps mode work).calls)
    (hfails : c.StepFails cause) : c ∈ (walkRange segment steps mode work).calls := by
  cases hrange : (walkRange segment steps mode work).failure with
  | some cause' =>
      rw [walkMode_of_failure hrange, Walk.calls_append, List.mem_append] at hc
      refine hc.resolve_right fun hthrow => ?_
      exact Call.not_stepFails (isStep_of_mem_walkThrow hthrow) hfails
  | none =>
      rw [walkMode_of_none hrange] at hc
      split at hc
      · rw [Walk.calls_append, List.mem_append, calls_walkAfter, List.mem_singleton] at hc
        refine hc.resolve_right ?_
        rintro rfl
        exact Call.not_stepFails rfl hfails
      · exact hc

/-- A wrapped step that fails is the last one called, and the interceptor gets its failure on
what the step left. -/
theorem walk_of_step_failure (hc : c ∈ (i.walk segment steps work).calls)
    (hfails : c.StepFails cause) :
    ∃ front mode, (i.before work.context).1 = .ok mode ∧
      (i.walk segment steps work).calls =
        front ++ c :: (i.walkThrow segment mode cause c.exit).calls ∧
      (i.walk segment steps work).failure = (i.walkThrow segment mode cause c.exit).failure ∧
      (i.walk segment steps work).work = (i.walkThrow segment mode cause c.exit).work := by
  have hopening : c ≠ i.beforeCall segment work := by
    rintro rfl
    exact Call.not_stepFails rfl hfails
  cases hmode : (i.before work.context).1 with
  | error failure =>
      refine absurd ?_ hopening
      simpa [walk_error hmode, Walk.calls, Record.call?] using hc
  | ok mode =>
      rw [walk_ok hmode, Walk.calls_logging] at hc
      have hrest : c ∈ (i.walkMode segment steps mode (i.beforeCall segment work).exit).calls :=
        (List.mem_append.1 hc).resolve_left (by simpa [List.filterMap_cons, Record.call?])
      obtain ⟨hfailure, hwork, front, hcalls⟩ :=
        walkRange_of_failure (mem_walkRange_of_step hrest hfails) hfails.failure?
      refine ⟨i.beforeCall segment work :: front, mode, rfl, ?_, ?_, ?_⟩
      · rw [walk_ok hmode, Walk.calls_logging, walkMode_of_failure hfailure, Walk.calls_append,
          hcalls, hwork]
        simp [List.filterMap_cons, Record.call?]
      · rw [walk_ok hmode, Walk.failure_logging, walkMode_of_failure hfailure,
          Walk.failure_append, hwork]
      · rw [walk_ok hmode, Walk.work_logging, walkMode_of_failure hfailure, Walk.work_append,
          hwork]

end Interceptor

end

/-! ## Whole runs -/

namespace Plan

variable {p : Plan R} {work : Workspace R} {k : Nat} {s : Segment R}

theorem endsBy_walk (hs : p.segments[k]? = some s) (work : Workspace R) :
    (s.walk k work).EndsBy p.escape? := by
  cases s with
  | plain step =>
      refine Walk.EndsBy.single (step.calls_walk k 0 work) ((step.failure_walk k 0 work).trans ?_)
      simp [escape?, Step.call, hs]
  | intercepted i steps =>
      refine (i.endsBy_walk k steps work).congr fun c hc => ?_
      rw [← Interceptor.segment_of_mem_calls_walk hc] at hs
      simp [escape?, hs]

theorem endsBy_run (p : Plan R) (work : Workspace R) : (p.run work).EndsBy p.escape? := by
  have hwalk : (walkSegments p.segments work).EndsBy p.escape? := by
    refine Walk.endsBy_walkEach (fun m s hs start => ?_) work
    rw [Nat.zero_add]
    exact endsBy_walk hs start
  have hcalls : (p.run work).calls = [] ++ (walkSegments p.segments work).calls :=
    p.calls_run work
  exact hwalk.of_calls_eq hcalls (p.failure_run work) (by simp)

/-! ## Failures that interceptors get -/

/-- An interceptor is called about a failure right after the wrapped step that failed,
and at most once in its segment. -/
theorem exists_step_of_throw {c : Call R} (hc : c ∈ (p.run work).calls) {id : String}
    {cause : Failure} {answer : Except Failure Recovery}
    (hcallback : c.callback = .onThrow id cause answer) :
    (∃ front d rest i steps, (p.run work).calls = front ++ d :: c :: rest ∧
      d.segment = c.segment ∧ p.segments[c.segment]? = some (.intercepted i steps) ∧
      ∃ position step, d.callback = .step position step (.error cause)) ∧
    ∀ d ∈ (p.run work).calls, d.segment = c.segment →
      ∀ id' cause' answer', d.callback = .onThrow id' cause' answer' → d = c := by
  obtain ⟨s, start, prior, later, hs, hcalls, hmem⟩ := exists_walk_of_mem_calls hc
  cases s with
  | plain step =>
      have hstep := hmem c hc rfl
      rw [Segment.walk, Step.calls_walk, List.mem_singleton] at hstep
      rw [hstep] at hcallback
      contradiction
  | intercepted i steps =>
      obtain ⟨opening, wrapped, throws, closing, hwalk, hbracket⟩ :=
        i.bracket_walk c.segment steps start
      rw [Segment.walk, hwalk] at hcalls hmem
      have hthrows := hbracket.mem_throws (hmem c hc rfl) hcallback
      obtain hnil | ⟨front, last, cause', hwrapped, hlast, hsingle⟩ := hbracket.throws_eq_nil_or
      · rw [hnil] at hthrows
        contradiction
      · have hthrow : c = i.throwCall c.segment cause' last.exit := by
          rwa [hsingle, List.mem_singleton] at hthrows
        have hcause : cause' = cause := by
          rw [hthrow] at hcallback
          cases hcallback
          rfl
        obtain ⟨n, step, hstep⟩ := hbracket.exists_step_of_mem (c := last) (by simp [hwrapped])
        refine ⟨⟨prior ++ opening :: front, last, closing ++ later, i, steps, ?_, ?_, hs, n,
          step.id, ?_⟩, ?_⟩
        · rw [hcalls, hwrapped, hsingle, ← hthrow]
          simp
        · rw [hstep]
          rfl
        · rw [hstep, hcause] at hlast
          rw [hstep]
          exact Step.callback_call hlast
        · intro d hd hsegment id' cause'' answer' hd'
          have hthrows' := hbracket.mem_throws (hmem d hd hsegment) hd'
          rwa [hsingle, ← hthrow, List.mem_singleton] at hthrows'

theorem aborts_run (p : Plan R) (work : Workspace R) :
    p.Aborts (p.run work).calls (p.run work).failure (p.run work).work where
  makes _ := makes_of_mem_calls
  failure_iff e := (p.endsBy_run work).failure_eq_some_iff
  ends front c rest hcalls hescape := by
    obtain rfl := (p.endsBy_run work).eq_nil_of_calls_eq hcalls hescape
    exact ⟨rfl, (hcalls ▸ p.relay_run work).finish_eq_of_concat⟩
  thrown c hc id cause answer hcallback := (exists_step_of_throw hc hcallback).1
  recovers hsteps hhooks := by
    by_contra hfailure
    obtain ⟨e, he⟩ := Option.ne_none_iff_exists'.1 hfailure
    obtain ⟨c, hc, hescape⟩ := (p.endsBy_run work).failure_eq_some_iff.1 he
    obtain ⟨hplain, position, step, hstep⟩ | ⟨id, cause, hthrow⟩ | ⟨id, hhook⟩ :=
      escape?_eq_some_iff.1 hescape
    · -- A step that runs by itself has no interceptor to recover from its failure.
      obtain ⟨d, hd, hsegment, id, cause', recovery, hthrow⟩ := hsteps c hc position step e hstep
      obtain ⟨-, -, -, i, steps, -, -, hwrapped, -⟩ := (exists_step_of_throw hd hthrow).1
      rw [hsegment] at hwrapped
      exact hplain i steps hwrapped
    · -- The failing step before it is recovered from, but only `c` is called about it.
      obtain ⟨⟨front, d, rest, i, steps, hcalls, hd, -, position, step, hstep⟩, hunique⟩ :=
        exists_step_of_throw hc hthrow
      obtain ⟨d', hd', hsegment, id', cause', recovery, hrecovers⟩ :=
        hsteps d (by simp [hcalls]) position step cause hstep
      obtain rfl := hunique d' hd' (hsegment.trans hd) id' cause' _ hrecovers
      rw [hthrow] at hrecovers
      cases hrecovers
    · exact hhook.elim (hhooks c hc id e).1 (hhooks c hc id e).2

/-- A failure that escapes ends the run of a plan at once, and so an execution of it. -/
theorem failure_ends_run (p : Plan R) (work : Workspace R) :
    p.Aborts (p.run work).calls (p.run work).failure (p.run work).work ∧
    ∀ (v : Variant R) (id : ExecutionId) (clock : Clock) (name : String) (layer : Option String),
      build v = .ok p →
        let e := Execution.run id clock (.new name layer) v work
        p.Aborts e.calls e.failure e.work := by
  refine ⟨p.aborts_run work, fun v id clock name layer hbuild => ?_⟩
  have h := p.aborts_run work
  rwa [← Execution.calls_run hbuild id clock name layer,
    ← Execution.failure_run hbuild id clock name layer,
    ← Execution.work_run hbuild id clock name layer] at h

end Plan

end

namespace Plan

/-- A pipeline whose guard puts a failure of its own in place of the one that it gets. -/
def breachedVariant : Variant String where
  name := "breached"
  steps :=
    [TextStep.toStep ⟨"open", .append "opened"⟩,
      TextStep.toStep ⟨"read", .fail "no input" none "user"⟩,
      TextStep.toStep ⟨"trim", .append "trimmed"⟩]
  interceptors :=
    [TextInterceptor.toInterceptor
      ⟨"guard", some "read", none, .recover .translate (some "nothing to trim") "error"⟩]

def breached : Plan String where
  segments :=
    [.plain (TextStep.toStep ⟨"open", .append "opened"⟩),
      .intercepted
        (TextInterceptor.toInterceptor
          ⟨"guard", some "read", none, .recover .translate (some "nothing to trim") "error"⟩)
        [TextStep.toStep ⟨"read", .fail "no input" none "user"⟩,
          TextStep.toStep ⟨"trim", .append "trimmed"⟩]]

theorem build_breached : build breachedVariant = .ok breached := by
  have hplaced : placeAll ["open", "read", "trim"] breachedVariant.interceptors =
      .ok [(⟨1, 3⟩, TextInterceptor.toInterceptor
        ⟨"guard", some "read", none, .recover .translate (some "nothing to trim") "error"⟩)] := rfl
  rw [build_of_follows (v := breachedVariant) rfl hplaced (by simp [sortByStart, Follows])]
  simp only [sortByStart, List.mergeSort_singleton]
  rfl

def breachedRun : Execution String :=
  Execution.run default default (.new "breached" none) breachedVariant ⟨.empty, ""⟩

/-- The guard is the last to be called, and the failure that it answers the result. -/
theorem failure_ends_run_breached :
    build breachedVariant = .ok breached ∧
      breached.Aborts breachedRun.calls breachedRun.failure breachedRun.work ∧
      breachedRun.failure = some (.stepFailed "guard" "nothing to trim") ∧
      ∃ front c, breachedRun.calls = front ++ [c] ∧
        breached.escape? c = some (.stepFailed "guard" "nothing to trim") ∧
        c.exit.response = "opened" ∧
        c.exit.context.getOptionalText "error" =
          .ok (some "Step 'read' failed: no input") := by
  have haborts := (failure_ends_run breached ⟨.empty, ""⟩).2 breachedVariant default default
    "breached" none build_breached
  have hfailure : breachedRun.failure = some (.stepFailed "guard" "nothing to trim") := by
    rw [breachedRun, Execution.failure_run build_breached]
    rfl
  have hwork : breachedRun.work = (breached.run ⟨.empty, ""⟩).work :=
    Execution.work_run build_breached ..
  obtain ⟨c, hc, hescape⟩ := (haborts.failure_iff _).1 hfailure
  obtain ⟨front, rest, hcalls⟩ := List.append_of_mem hc
  obtain ⟨rfl, hend⟩ := haborts.ends front c rest hcalls (by simp [hescape])
  have hexit : c.exit = (breached.run ⟨.empty, ""⟩).work := hend.symm.trans hwork
  refine ⟨build_breached, haborts, hfailure, front, c, hcalls, hescape, ?_, ?_⟩
  · rw [hexit]
    rfl
  · rw [hexit]
    rfl

end Plan

end StepWeave

import StepWeave.Proofs.Run.Bracket

/-!
# Where the calls of a run come from

Every call of a run is the call of a step or of an interceptor of its plan, and on a
finished context no step is called and no interceptor is asked (`Segment.Makes`).  So what
all steps and interceptors of a plan do to the workspace, every call of a run does
(`Plan.respects_call`).
-/

namespace StepWeave

variable [Types] {R : Type}

/-- The calls that a segment can make at its place in a plan. -/
inductive Segment.Makes (index : Nat) : Segment R → Call R → Prop where
  | plain {step : Step R} {work : Workspace R} :
    work.context.finished = false → Makes index (.plain step) (step.call index 0 work)
  | before {i : Interceptor R} {steps : List (Step R)} {work : Workspace R} :
    work.context.finished = false → Makes index (.intercepted i steps) (i.beforeCall index work)
  | wrapped {i : Interceptor R} {steps : List (Step R)} {n : Nat} {step : Step R}
      {work : Workspace R} :
    steps[n]? = some step → work.context.finished = false →
    Makes index (.intercepted i steps) (step.call index n work)
  | onThrow {i : Interceptor R} {steps : List (Step R)} {failure : Failure} {work : Workspace R} :
    Makes index (.intercepted i steps) (i.throwCall index failure work)
  | after {i : Interceptor R} {steps : List (Step R)} {work : Workspace R} :
    Makes index (.intercepted i steps) (i.afterCall index work)

/-- The call is one that its segment of the plan can make. -/
def Plan.Makes (p : Plan R) (c : Call R) : Prop :=
  ∃ s, p.segments[c.segment]? = some s ∧ s.Makes c.segment c

theorem Bracket.makes_of_mem {segment : Nat} {i : Interceptor R} {steps : List (Step R)}
    {start : Workspace R} {opening c : Call R} {wrapped throws closing : List (Call R)}
    (h : Bracket segment i steps start opening wrapped throws closing)
    (hstart : start.context.finished = false)
    (hc : c ∈ opening :: (wrapped ++ (throws ++ closing))) :
    (Segment.intercepted i steps).Makes segment c := by
  rw [List.mem_cons, List.mem_append, List.mem_append] at hc
  obtain rfl | hc | hc | hc := hc
  · rw [h.opens]
    exact .before hstart
  · obtain ⟨n, hn⟩ := List.mem_iff_getElem?.1 hc
    obtain ⟨s, hs, heq⟩ := h.inOrder n c hn
    rw [heq]
    exact .wrapped hs (h.unfinished c hc)
  · obtain hnil | ⟨front, last, cause, -, -, hthrows⟩ := h.throws_eq_nil_or
    · rw [hnil] at hc
      contradiction
    · rw [hthrows, List.mem_singleton] at hc
      rw [hc]
      exact .onThrow
  · by_cases hcloses : i.Closes start throws
    · obtain ⟨work, hclosing⟩ := h.closing_eq hcloses
      rw [hclosing, List.mem_singleton] at hc
      rw [hc]
      exact .after
    · rw [h.closing_nil hcloses] at hc
      contradiction

theorem Segment.makes_of_mem_calls_walk {s : Segment R} {index : Nat} {start : Workspace R}
    {c : Call R} (hstart : start.context.finished = false)
    (hc : c ∈ (s.walk index start).calls) : s.Makes index c := by
  cases s with
  | plain step =>
      rw [Segment.walk, Step.calls_walk, List.mem_singleton] at hc
      rw [hc]
      exact .plain hstart
  | intercepted i steps =>
      obtain ⟨opening, wrapped, throws, closing, hcalls, hbracket⟩ :=
        i.bracket_walk index steps start
      rw [Segment.walk, hcalls] at hc
      exact hbracket.makes_of_mem hstart hc

theorem Plan.makes_of_mem_calls {p : Plan R} {work : Workspace R} {c : Call R}
    (hc : c ∈ (p.run work).calls) : p.Makes c := by
  rw [calls_run] at hc
  obtain ⟨k, s, start, hs, hstart, hmem⟩ := mem_calls_walkEach hc
  rw [Nat.zero_add] at hmem
  rw [Makes, Segment.segment_of_mem_calls_walk hmem]
  exact ⟨s, hs, Segment.makes_of_mem_calls_walk hstart hmem⟩

/-! ## What all callbacks of a plan do -/

section

variable (Q : Workspace R → Workspace R → Prop)

/-- A step takes every workspace to one that is related to it. -/
def Step.Respects (s : Step R) : Prop := ∀ work, Q work (s.act work).2

structure Interceptor.Respects (i : Interceptor R) : Prop where
  before : ∀ work, Q work { work with context := (i.before work.context).2 }
  onThrow : ∀ failure work, Q work { work with context := (i.onThrow failure work.context).2 }
  after : ∀ work, Q work (i.after work).2

def Segment.Respects : Segment R → Prop
  | .plain step => step.Respects Q
  | .intercepted i steps => i.Respects Q ∧ ∀ step ∈ steps, step.Respects Q

variable {Q}

theorem Segment.Makes.respects {s : Segment R} {index : Nat} {c : Call R} (h : s.Makes index c)
    (hs : s.Respects Q) : Q c.entry c.exit := by
  cases h with
  | plain => exact hs _
  | before => exact hs.1.before _
  | wrapped hstep => exact hs.2 _ (List.mem_of_getElem? hstep) _
  | onThrow => exact hs.1.onThrow _ _
  | after => exact hs.1.after _

theorem Plan.respects_call {p : Plan R} (h : ∀ s ∈ p.segments, s.Respects Q)
    {work : Workspace R} {c : Call R} (hc : c ∈ (p.run work).calls) : Q c.entry c.exit := by
  obtain ⟨s, hs, hmakes⟩ := makes_of_mem_calls hc
  exact hmakes.respects (h s (List.mem_of_getElem? hs))

end

end StepWeave

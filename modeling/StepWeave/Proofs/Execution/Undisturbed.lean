import StepWeave.Proofs.Execution.Events

/-!
# Runs that nothing holds up

A run completes every step of its plan (`Plan.completed_of_undisturbed`) unless a call fails
for good or finishes the context, or an interceptor leaves steps out (`Walk.Undisturbed`).
-/

namespace StepWeave

variable [Types] {R α : Type}

namespace Walk

/-- Nothing keeps the walk from running all of its steps to the end. -/
structure Undisturbed (w : Walk R) : Prop where
  failure_eq : w.failure = none
  unfinished : ∀ c ∈ w.calls, c.exit.context.finished = false
  /-- No interceptor leaves out the steps that it wraps. -/
  runsSteps : ∀ i mode, .interceptorEntered i mode ∈ w.events → mode.runsSteps = true
  unrecovered : ∀ i error recovery, .failureRecovered i error recovery ∉ w.events

namespace Undisturbed

variable {w part later : Walk R}

theorem restrict (h : w.Undisturbed) (hfailure : part.failure = none)
    (hcalls : part.calls ⊆ w.calls) (hevents : part.events ⊆ w.events) : part.Undisturbed where
  failure_eq := hfailure
  unfinished c hc := h.unfinished c (hcalls hc)
  runsSteps i mode hentered := h.runsSteps i mode (hevents hentered)
  unrecovered i error recovery hrecovered := h.unrecovered i error recovery (hevents hrecovered)

theorem left (h : (w.append later).Undisturbed) (hfailure : w.failure = none) : w.Undisturbed := by
  apply h.restrict hfailure
  · rw [calls_append]
    exact List.subset_append_left _ _
  · rw [events_append]
    exact List.subset_append_left _ _

theorem right (h : (w.append later).Undisturbed) : later.Undisturbed := by
  have hfailure : later.failure = none := h.failure_eq
  apply h.restrict hfailure
  · rw [calls_append]
    exact List.subset_append_right _ _
  · rw [events_append]
    exact List.subset_append_right _ _

theorem of_logging {records : List (Record R)} (h : (w.logging records).Undisturbed) :
    w.Undisturbed := by
  have hfailure : w.failure = none := h.failure_eq
  apply h.restrict hfailure
  · rw [calls_logging]
    exact List.subset_append_right _ _
  · rw [events_logging]
    exact List.subset_append_right _ _

/-- Parts of which each completes as many steps as it has complete all their steps. -/
theorem completed_walkEach {go : Nat → α → Workspace R → Walk R} (steps : α → List (Step R))
    (hrelay : ∀ index part work, Relay work (go index part work).calls (go index part work).work)
    (hgo : ∀ index part work, (go index part work).Undisturbed →
      (go index part work).completed = (steps part).length)
    {index : Nat} {parts : List α} {work : Workspace R} (hstart : work.context.finished = false)
    (h : (walkEach go index parts work).Undisturbed) :
    (walkEach go index parts work).completed = (parts.flatMap steps).length := by
  induction parts generalizing index work with
  | nil => rfl
  | cons part rest ih =>
      obtain ⟨hfinished, -⟩ | ⟨-, ⟨failure, hfailure⟩, heq⟩ | ⟨-, hfailure, heq⟩ :=
        walkEach_cons go index part rest work
      · rw [hfinished] at hstart
        contradiction
      · rw [heq] at h
        rw [h.failure_eq] at hfailure
        contradiction
      · rw [heq] at h ⊢
        have hpart := h.left hfailure
        have hnext := ((hrelay index part work).invariant (·.context.finished = false) hstart
          fun c hc _ => hpart.unfinished c hc).2
        rw [completed_append, hgo index part work hpart, ih hnext h.right, List.flatMap_cons,
          List.length_append]

end Undisturbed

end Walk

section

variable {segment position : Nat} {s : Step R} {i : Interceptor R} {steps : List (Step R)}
  {mode : Mode} {work : Workspace R}

theorem Step.completed_walk (h : (s.walk segment position work).Undisturbed) :
    (s.walk segment position work).completed = 1 := by
  have hfailure := h.failure_eq
  cases hact : (s.act work).1 with
  | ok => rw [Step.walk_ok hact]
  | error failure =>
      rw [Step.walk_error hact] at hfailure
      contradiction

theorem completed_walkRange (hruns : mode.runsSteps = true)
    (hstart : work.context.finished = false) (h : (walkRange segment steps mode work).Undisturbed) :
    (walkRange segment steps mode work).completed = steps.length := by
  rw [walkRange, if_pos hruns] at h ⊢
  have hrelay (index : Nat) (s : Step R) (work : Workspace R) :
      Relay work (s.walk segment index work).calls (s.walk segment index work).work :=
    s.relay_walk segment work index
  rw [h.completed_walkEach ([·]) hrelay (fun _ _ _ => Step.completed_walk) hstart,
    List.flatMap_singleton']

theorem Interceptor.completed_walkMode (hruns : mode.runsSteps = true)
    (hstart : work.context.finished = false)
    (h : (i.walkMode segment steps mode work).Undisturbed) :
    (i.walkMode segment steps mode work).completed = steps.length := by
  cases hrange : (walkRange segment steps mode work).failure with
  | some cause =>
      rw [walkMode_of_failure hrange] at h
      have hthrow := h.right
      cases hanswer : (i.onThrow cause (walkRange segment steps mode work).work.context).1 with
      | error failure =>
          have hfailure := hthrow.failure_eq
          rw [walkThrow_error hanswer] at hfailure
          contradiction
      | ok recovery =>
          refine absurd ?_ (hthrow.unrecovered i.id cause.message recovery)
          simp [walkThrow_ok hanswer, List.filterMap_cons, Record.event?]
  | none =>
      rw [walkMode_of_none hrange] at h ⊢
      split at h
      next hafter =>
        rw [if_pos hafter, Walk.completed_append, (events_walkAfter segment i _).2, Nat.add_zero]
        exact completed_walkRange hruns hstart (h.left hrange)
      next hafter =>
        rw [if_neg hafter]
        exact completed_walkRange hruns hstart h

theorem Segment.completed_walk {s : Segment R} (h : (s.walk segment work).Undisturbed) :
    (s.walk segment work).completed = s.steps.length := by
  cases s with
  | plain step => exact Step.completed_walk h
  | intercepted i steps =>
      rw [Segment.walk] at h ⊢
      cases hmode : (i.before work.context).1 with
      | error failure =>
          have hfailure := h.failure_eq
          rw [Interceptor.walk_error hmode] at hfailure
          contradiction
      | ok mode =>
          rw [Interceptor.walk_ok hmode] at h ⊢
          have hruns := h.runsSteps i.id mode (by simp [List.filterMap_cons, Record.event?])
          have hstart := h.unfinished (i.beforeCall segment work)
            (by simp [List.filterMap_cons, Record.call?])
          exact Interceptor.completed_walkMode hruns hstart h.of_logging

end

namespace Plan

theorem completed_of_undisturbed {p : Plan R} {work : Workspace R}
    (hstart : work.context.finished = false) (h : (p.run work).Undisturbed) :
    (p.run work).completed = p.steps.length := by
  have hsegments : (walkSegments p.segments work).Undisturbed := by
    apply h.restrict
    · rw [← failure_run]
      exact h.failure_eq
    · rw [calls_run]
      exact List.Subset.refl _
    · rw [events_run]
      exact List.subset_append_left _ _
  have hrelay (index : Nat) (s : Segment R) (work : Workspace R) :
      Relay work (s.walk index work).calls (s.walk index work).work := s.relay_walk index work
  rw [completed_run, steps]
  exact hsegments.completed_walkEach Segment.steps hrelay
    (fun _ _ _ => Segment.completed_walk) hstart

end Plan

end StepWeave

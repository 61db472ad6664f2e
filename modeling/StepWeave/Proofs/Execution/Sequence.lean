import StepWeave.Proofs.Execution.Counting
import StepWeave.Proofs.Execution.Undisturbed
import StepWeave.Proofs.Run.Abort
import StepWeave.ValueType

/-!
# Steps in order

A run calls steps of its plan in the order in which the plan has them, and none of them
twice: its calls are a sublist of the places of the plan (`Plan.sublist_places`).  With the
counts of what was announced and completed this tells how far a run can have come at any
moment, and what it has done if nothing held it up (`Plan.steps_in_order`).
-/

namespace StepWeave

section

variable [Types] {R α : Type}

/-! ## The places of the calls -/

/-- A list of parts makes its calls in places that follow each other. -/
theorem Walk.sublist_walkEach {go : Nat → α → Workspace R → Walk R}
    {place? : Call R → Option (String × Nat)} {ids : α → List String} (offset : Nat → Nat)
    {index : Nat} {parts : List α}
    (hgo : ∀ m part, parts[m]? = some part → ∀ work,
      ((go (index + m) part work).calls.filterMap place?).Sublist
        ((ids part).zipIdx (offset (index + m))))
    (hoffset : ∀ m part, parts[m]? = some part →
      offset (index + m + 1) = offset (index + m) + (ids part).length)
    (work : Workspace R) :
    ((walkEach go index parts work).calls.filterMap place?).Sublist
      ((parts.flatMap ids).zipIdx (offset index)) := by
  induction parts generalizing index work with
  | nil => simp [walkEach]
  | cons part rest ih =>
      have hpart := hgo 0 part rfl work
      have hnext : offset (index + 1) = offset index + (ids part).length := hoffset 0 part rfl
      rw [List.flatMap_cons, List.zipIdx_append, ← hnext]
      obtain ⟨-, h⟩ | ⟨-, -, h⟩ | ⟨-, -, h⟩ := walkEach_cons go index part rest work
      · rw [h]
        exact List.nil_sublist _
      · rw [h]
        exact hpart.trans (List.sublist_append_left _ _)
      · rw [h, Walk.calls_append, List.filterMap_append]
        refine hpart.append (ih (fun m part' h' => ?_) (fun m part' h' => ?_) _)
        · rw [Nat.add_right_comm]
          exact hgo (m + 1) part' h'
        · rw [Nat.add_right_comm index 1 m]
          exact hoffset (m + 1) part' h'

namespace Plan

variable (p : Plan R)

/-- The number of steps before a segment. -/
def offset (k : Nat) : Nat := ((p.segments.take k).flatMap Segment.steps).length

/-- The id of the step that was called, with the position of the step in the plan. -/
def place? (c : Call R) : Option (String × Nat) :=
  match c.callback with
  | .step position id _ => some (id, p.offset c.segment + position)
  | _ => none

theorem offset_succ {k : Nat} {s : Segment R} (h : p.segments[k]? = some s) :
    p.offset (k + 1) = p.offset k + s.steps.length := by
  rw [offset, List.take_add_one, h, Option.toList_some, List.flatMap_append, List.length_append,
    List.flatMap_singleton, offset]

theorem map_place? (calls : List (Call R)) :
    (calls.filterMap p.place?).map Prod.fst = calls.filterMap fun c => c.callback.stepId? := by
  rw [List.map_filterMap]
  refine congrArg (List.filterMap · calls) (funext fun c => ?_)
  rw [place?]
  cases c.callback <;> rfl

theorem filterMap_place?_of_not_step {calls : List (Call R)}
    (h : ∀ c ∈ calls, c.callback.isStep = false) : calls.filterMap p.place? = [] := by
  rw [List.filterMap_eq_nil_iff]
  intro c hc
  have hc := h c hc
  rw [place?]
  cases hcallback : c.callback with
  | step => simp [hcallback, Callback.isStep] at hc
  | _ => rfl

section

variable (segment : Nat) (i : Interceptor R) (steps : List (Step R)) (mode : Mode)
  (work : Workspace R)

theorem sublist_walkRange :
    ((walkRange segment steps mode work).calls.filterMap p.place?).Sublist
      ((steps.map (·.id)).zipIdx (p.offset segment)) := by
  rw [walkRange]
  split
  · rw [← List.flatMap_singleton' (steps.map _), List.flatMap_map]
    refine Walk.sublist_walkEach (p.offset segment + ·) (fun m s _ work => ?_) (fun _ _ _ => rfl)
      work
    rw [Step.calls_walk]
    exact .refl _
  · exact List.nil_sublist _

theorem sublist_walkMode :
    ((i.walkMode segment steps mode work).calls.filterMap p.place?).Sublist
      ((steps.map (·.id)).zipIdx (p.offset segment)) := by
  have hrange := p.sublist_walkRange segment steps mode work
  cases h : (walkRange segment steps mode work).failure with
  | some cause =>
      rw [Interceptor.walkMode_of_failure h, Walk.calls_append, List.filterMap_append,
        p.filterMap_place?_of_not_step fun c hc => Interceptor.isStep_of_mem_walkThrow hc,
        List.append_nil]
      exact hrange
  | none =>
      rw [Interceptor.walkMode_of_none h]
      split
      · have hafter (work : Workspace R) :
            [i.afterCall segment work].filterMap p.place? = [] := rfl
        rw [Walk.calls_append, List.filterMap_append, Interceptor.calls_walkAfter, hafter,
          List.append_nil]
        exact hrange
      · exact hrange

theorem sublist_walk (s : Segment R) :
    ((s.walk segment work).calls.filterMap p.place?).Sublist
      ((s.steps.map (·.id)).zipIdx (p.offset segment)) := by
  cases s with
  | plain step =>
      rw [Segment.walk, Step.calls_walk]
      exact .refl _
  | intercepted i steps =>
      rw [Segment.walk]
      cases hmode : (i.before work.context).1 with
      | error failure =>
          rw [Interceptor.walk_error hmode]
          exact List.nil_sublist _
      | ok mode =>
          rw [Interceptor.walk_ok hmode, Walk.calls_logging]
          exact p.sublist_walkMode segment i steps mode _

end

/-- A run calls each step of the plan at most once, and one after the other in the order of
the plan. -/
theorem sublist_places (work : Workspace R) :
    ((p.run work).calls.filterMap p.place?).Sublist p.stepIds.zipIdx := by
  rw [calls_run, stepIds, steps, List.map_flatMap]
  refine Walk.sublist_walkEach p.offset (fun m s hs work => ?_) (fun m s hs => ?_) work
  · exact p.sublist_walk _ work s
  · rw [Nat.zero_add, List.length_map]
    exact p.offset_succ hs

theorem startedIds_sublist (work : Workspace R) :
    (Event.startedIds (p.run work).events).Sublist p.stepIds := by
  rw [startedIds_run, ← map_place?, ← List.zipIdx_map_fst 0 p.stepIds]
  exact (p.sublist_places work).map Prod.fst

theorem length_startedIds_le (work : Workspace R) :
    (Event.startedIds (p.run work).events).length ≤ p.steps.length := by
  have hlength := (p.startedIds_sublist work).length_le
  rwa [stepIds, List.length_map] at hlength

theorem length_startedIds_past_le {work : Workspace R} {past future : List (Record R)}
    (h : (p.run work).log = past ++ future) :
    (Event.startedIds (past.filterMap Record.event?)).length ≤ p.steps.length := by
  have hpast : (past.filterMap Record.event?).Sublist (p.run work).events := by
    rw [Walk.events, h]
    exact (List.sublist_append_left past future).filterMap Record.event?
  have hle := (hpast.filterMap Event.started?).length_le
  exact Nat.le_trans hle (p.length_startedIds_le work)

/-- A run starts the steps of its plan in order and each of them at most once.  At no moment
has it completed more of them than it has started, and if nothing holds it up, it completes
them all.  A plan that was built keeps their number. -/
theorem steps_in_order (p : Plan R) (work : Workspace R) :
    (∀ c ∈ (p.run work).calls, p.Makes c) ∧
    Event.startedIds (p.run work).events =
        ((p.run work).calls.filterMap p.place?).map Prod.fst ∧
    ((p.run work).calls.filterMap p.place?).Sublist p.stepIds.zipIdx ∧
    (∀ past future, (p.run work).log = past ++ future →
      Call.completedSteps (past.filterMap Record.call?) ≤
          (Event.startedIds (past.filterMap Record.event?)).length ∧
        (Event.startedIds (past.filterMap Record.event?)).length ≤ p.steps.length) ∧
    (p.run work).completed = Call.completedSteps (p.run work).calls ∧
    (work.context.finished = false → (p.run work).Undisturbed →
      Event.startedIds (p.run work).events = p.stepIds ∧
        Event.completedIds (p.run work).events = p.stepIds ∧
        (p.run work).completed = p.steps.length) ∧
    (∀ v : Variant R, build v = .ok p → p.total = p.steps.length) := by
  refine ⟨fun _ => makes_of_mem_calls, ?_, p.sublist_places work, fun past future h => ?_,
    p.completed_run_eq work, fun hstart h => ?_, fun _ => total_of_build⟩
  · rw [startedIds_run, map_place?]
  · exact ⟨p.covered_run work past future h, p.length_startedIds_past_le h⟩
  · have hcompleted := completed_of_undisturbed hstart h
    have hcompletedIds : Event.completedIds (p.run work).events = p.stepIds := by
      refine ((p.completedIds_sublist work).trans (p.startedIds_sublist work)).eq_of_length_le ?_
      rw [length_completedIds_run, hcompleted, stepIds, List.length_map]
    refine ⟨(p.startedIds_sublist work).eq_of_length_le ?_, hcompletedIds, hcompleted⟩
    rw [← hcompletedIds]
    exact (p.completedIds_sublist work).length_le

end Plan

end

namespace Plan

def attended : Plan String where
  segments :=
    [.plain (TextStep.toStep ⟨"open", .append "o"⟩),
      .intercepted
        (TextInterceptor.toInterceptor ⟨"guard", none, none, .recover .resume none "error"⟩)
        [TextStep.toStep ⟨"read", .append "r"⟩, TextStep.toStep ⟨"trim", .append "t"⟩]]

theorem steps_in_order_attended :
    Call.completedSteps (((attended.run ⟨.empty, ""⟩).log.take 2).filterMap Record.call?) ≤
        (Event.startedIds
          (((attended.run ⟨.empty, ""⟩).log.take 2).filterMap Record.event?)).length ∧
      (attended.run ⟨.empty, ""⟩).Undisturbed ∧
      Event.startedIds (attended.run ⟨.empty, ""⟩).events = ["open", "read", "trim"] ∧
      Event.completedIds (attended.run ⟨.empty, ""⟩).events = ["open", "read", "trim"] ∧
      (attended.run ⟨.empty, ""⟩).completed = 3 := by
  have hevents : (attended.run ⟨.empty, ""⟩).events =
      [.stepStarted "open", .stepCompleted "open", .interceptorEntered "guard" .all,
        .stepStarted "read", .stepCompleted "read", .stepStarted "trim",
        .stepCompleted "trim"] := rfl
  have hundisturbed : (attended.run ⟨.empty, ""⟩).Undisturbed := {
    failure_eq := rfl
    unfinished := by decide
    runsSteps := by
      rw [hevents]
      simp [Mode.runsSteps]
    unrecovered := by
      rw [hevents]
      simp }
  obtain ⟨-, -, -, hmoment, -, hall, -⟩ := steps_in_order attended ⟨.empty, ""⟩
  exact ⟨(hmoment _ _ (List.take_append_drop 2 _).symm).1, hundisturbed,
    hall rfl hundisturbed⟩

end Plan

end StepWeave

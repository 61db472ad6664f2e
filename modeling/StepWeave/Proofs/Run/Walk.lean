import StepWeave.Run

/-!
# Walks and their parts

How a walk is put together from the walks of its parts: what running one after
the other logs (`Walk.calls_append` and its like), what a single call gives
(`Step.walk_ok` and its like), and the three ways in which a list of parts can go
(`walkEach_cons`).  Nothing after this module unfolds a walk.
-/

namespace StepWeave

variable [Types] {R α : Type}

/-! ## Calls -/

def Step.call (segment position : Nat) (s : Step R) (work : Workspace R) : Call R where
  segment
  callback := .step position s.id (s.act work).1
  entry := work
  exit := (s.act work).2
  pause := s.pause

namespace Interceptor

def beforeCall (segment : Nat) (i : Interceptor R) (work : Workspace R) : Call R where
  segment
  callback := .before i.id (i.before work.context).1
  entry := work
  exit := { work with context := (i.before work.context).2 }

def throwCall (segment : Nat) (i : Interceptor R) (failure : Failure) (work : Workspace R) :
    Call R where
  segment
  callback := .onThrow i.id failure (i.onThrow failure work.context).1
  entry := work
  exit := { work with context := (i.onThrow failure work.context).2 }

def afterCall (segment : Nat) (i : Interceptor R) (work : Workspace R) : Call R where
  segment
  callback := .after i.id (i.after work).1
  entry := work
  exit := (i.after work).2

end Interceptor

/-! ## One walk after the other -/

namespace Walk

variable (w later : Walk R) (records : List (Record R))

@[simp] theorem failure_append : (w.append later).failure = later.failure := rfl

@[simp] theorem work_append : (w.append later).work = later.work := rfl

@[simp] theorem completed_append :
    (w.append later).completed = w.completed + later.completed := rfl

@[simp] theorem events_append : (w.append later).events = w.events ++ later.events := by
  simp [events, append]

@[simp] theorem calls_append : (w.append later).calls = w.calls ++ later.calls := by
  simp [calls, append]

@[simp] theorem failure_logging : (w.logging records).failure = w.failure := rfl

@[simp] theorem work_logging : (w.logging records).work = w.work := rfl

@[simp] theorem completed_logging : (w.logging records).completed = w.completed := rfl

@[simp] theorem events_logging :
    (w.logging records).events = records.filterMap Record.event? ++ w.events := by
  simp [events, logging]

@[simp] theorem calls_logging :
    (w.logging records).calls = records.filterMap Record.call? ++ w.calls := by
  simp [calls, logging]

@[simp] theorem events_idle (work : Workspace R) : ({ work } : Walk R).events = [] := rfl

@[simp] theorem calls_idle (work : Workspace R) : ({ work } : Walk R).calls = [] := rfl

theorem append_idle {w : Walk R} (h : w.failure = none) : w.append { work := w.work } = w := by
  obtain ⟨failure, work, completed, log⟩ := w
  simp_all [append]

theorem append_assoc (first second third : Walk R) :
    (first.append second).append third = first.append (second.append third) := by
  simp [append, Nat.add_assoc]

theorem andThen_of_failure {w : Walk R} {failure : Failure} (h : w.failure = some failure)
    (next : Workspace R → Walk R) : w.andThen next = w := by
  simp [andThen, h]

theorem andThen_of_none {w : Walk R} (h : w.failure = none) (next : Workspace R → Walk R) :
    w.andThen next = w.append (next w.work) := by
  simp [andThen, h]

end Walk

/-! ## Single calls -/

section

variable {segment position : Nat} {s : Step R} {i : Interceptor R} {work : Workspace R}
  {failure cause : Failure} {mode : Mode} {recovery : Recovery}

theorem Step.walk_ok (h : (s.act work).1 = .ok ()) :
    s.walk segment position work =
      { work := (s.act work).2
        completed := 1
        log := [.event (.stepStarted s.id), .call (s.call segment position work),
          .event (.stepCompleted s.id)] } := by
  simp [Step.walk, Step.call, h]

theorem Step.walk_error (h : (s.act work).1 = .error failure) :
    s.walk segment position work =
      { failure := some failure
        work := (s.act work).2
        log := [.event (.stepStarted s.id), .call (s.call segment position work),
          .event (.stepFailed s.id failure.message)] } := by
  simp [Step.walk, Step.call, h]

namespace Interceptor

theorem walkAfter_ok (h : (i.after work).1 = .ok ()) :
    i.walkAfter segment work =
      { work := (i.after work).2, log := [.call (i.afterCall segment work)] } := by
  simp [walkAfter, afterCall, h]

theorem walkAfter_error (h : (i.after work).1 = .error failure) :
    i.walkAfter segment work =
      { failure := some failure
        work := (i.after work).2
        log := [.call (i.afterCall segment work)] } := by
  simp [walkAfter, afterCall, h]

theorem walkThrow_error (h : (i.onThrow cause work.context).1 = .error failure) :
    i.walkThrow segment mode cause work =
      { failure := some failure
        work := (i.throwCall segment cause work).exit
        log := [.call (i.throwCall segment cause work)] } := by
  simp [walkThrow, throwCall, h]

theorem walkThrow_ok (h : (i.onThrow cause work.context).1 = .ok recovery) :
    i.walkThrow segment mode cause work =
      (if mode.runsAfter = true ∧ recovery = .resume then
          i.walkAfter segment (i.throwCall segment cause work).exit
        else { work := (i.throwCall segment cause work).exit }).logging
        [.call (i.throwCall segment cause work),
          .event (.failureRecovered i.id cause.message recovery)] := by
  simp [walkThrow, throwCall, h]

theorem walk_error (h : (i.before work.context).1 = .error failure) (steps : List (Step R)) :
    i.walk segment steps work =
      { failure := some failure
        work := (i.beforeCall segment work).exit
        log := [.call (i.beforeCall segment work)] } := by
  simp [walk, beforeCall, h]

theorem walk_ok (h : (i.before work.context).1 = .ok mode) (steps : List (Step R)) :
    i.walk segment steps work =
      (i.walkMode segment steps mode (i.beforeCall segment work).exit).logging
        [.call (i.beforeCall segment work), .event (.interceptorEntered i.id mode)] := by
  simp [walk, beforeCall, h]

theorem walkMode_of_failure {steps : List (Step R)}
    (h : (walkRange segment steps mode work).failure = some cause) :
    i.walkMode segment steps mode work =
      (walkRange segment steps mode work).append
        (i.walkThrow segment mode cause (walkRange segment steps mode work).work) := by
  simp [walkMode, h]

theorem walkMode_of_none {steps : List (Step R)}
    (h : (walkRange segment steps mode work).failure = none) :
    i.walkMode segment steps mode work =
      if mode.runsAfter then
        (walkRange segment steps mode work).append
          (i.walkAfter segment (walkRange segment steps mode work).work)
      else walkRange segment steps mode work := by
  simp [walkMode, h]

end Interceptor

end

/-! ## Lists of parts -/

section

variable (go : Nat → α → Workspace R → Walk R) (index : Nat)

/-- A list of parts ends before its first part, with it, or goes on after it. -/
theorem walkEach_cons (part : α) (rest : List α) (work : Workspace R) :
    (work.context.finished = true ∧ walkEach go index (part :: rest) work = { work }) ∨
    (work.context.finished = false ∧ (∃ failure, (go index part work).failure = some failure) ∧
      walkEach go index (part :: rest) work = go index part work) ∨
    (work.context.finished = false ∧ (go index part work).failure = none ∧
      walkEach go index (part :: rest) work = (go index part work).append
        (walkEach go (index + 1) rest (go index part work).work)) := by
  cases hfinished : work.context.finished with
  | true => exact .inl ⟨rfl, by simp [walkEach, hfinished]⟩
  | false =>
      cases hfailure : (go index part work).failure with
      | some failure =>
          refine .inr (.inl ⟨rfl, ⟨failure, rfl⟩, ?_⟩)
          simp [walkEach, hfinished, Walk.andThen_of_failure hfailure]
      | none =>
          refine .inr (.inr ⟨rfl, rfl, ?_⟩)
          simp [walkEach, hfinished, Walk.andThen_of_none hfailure]

theorem walkEach_of_finished {work : Workspace R} (h : work.context.finished = true)
    (parts : List α) : walkEach go index parts work = { work } := by
  cases parts with
  | nil => rfl
  | cons part rest => simp [walkEach, h]

theorem walkEach_append (first second : List α) (work : Workspace R) :
    walkEach go index (first ++ second) work =
      (walkEach go index first work).andThen (walkEach go (index + first.length) second) := by
  induction first generalizing index work with
  | nil => simp [walkEach, Walk.andThen, Walk.append]
  | cons part rest ih =>
      rw [List.cons_append]
      have hlength : index + (part :: rest).length = index + 1 + rest.length := by
        rw [List.length_cons]
        omega
      obtain ⟨hfinished, h⟩ | ⟨hfinished, ⟨failure, hfailure⟩, h⟩ | ⟨hfinished, hfailure, h⟩ :=
        walkEach_cons go index part rest work
      · rw [h, walkEach_of_finished go index hfinished, Walk.andThen_of_none rfl,
          walkEach_of_finished go _ hfinished]
        rfl
      · rw [h, Walk.andThen_of_failure hfailure]
        simp [walkEach, hfinished, Walk.andThen_of_failure hfailure]
      · have hsplit : walkEach go index (part :: (rest ++ second)) work =
            (go index part work).append
              (walkEach go (index + 1) (rest ++ second) (go index part work).work) := by
          simp [walkEach, hfinished, Walk.andThen_of_none hfailure]
        rw [hsplit, ih, h, hlength]
        cases hrest : (walkEach go (index + 1) rest (go index part work).work).failure with
        | some failure => rw [Walk.andThen_of_failure hrest, Walk.andThen_of_failure (by simpa)]
        | none =>
            rw [Walk.andThen_of_none hrest, Walk.andThen_of_none (by simpa), Walk.append_assoc,
              Walk.work_append]

end

/-! ## Whole plans -/

namespace Plan

variable (p : Plan R) (work : Workspace R)

theorem run_eq :
    p.run work =
      if (walkSegments p.segments work).failure = none ∧
          (walkSegments p.segments work).work.context.finished = true then
        { walkSegments p.segments work with
          log := (walkSegments p.segments work).log ++
            [.event (.pipelineStopped (walkSegments p.segments work).completed)] }
      else walkSegments p.segments work := by
  simp [run]

theorem failure_run : (p.run work).failure = (walkSegments p.segments work).failure := by
  rw [run_eq]
  split <;> rfl

theorem work_run : (p.run work).work = (walkSegments p.segments work).work := by
  rw [run_eq]
  split <;> rfl

theorem completed_run :
    (p.run work).completed = (walkSegments p.segments work).completed := by
  rw [run_eq]
  split <;> rfl

theorem calls_run : (p.run work).calls = (walkSegments p.segments work).calls := by
  rw [run_eq]
  split
  · simp [Walk.calls, Record.call?]
  · rfl

theorem events_run :
    (p.run work).events = (walkSegments p.segments work).events ++
      if (p.run work).failure = none ∧ (p.run work).work.context.finished = true then
        [.pipelineStopped (p.run work).completed]
      else [] := by
  rw [failure_run, work_run, completed_run, run_eq]
  split
  · simp [Walk.events, Record.event?]
  · simp

end Plan

end StepWeave

import Mathlib.Data.List.Induction
import StepWeave.Progress

/-!
# How long the end of an execution stands

The first end of an execution that is noted stands until its progress is noted as resolved or
started again (`Progress.end_stands_iff`).  Nothing keeps that from being noted
(`Progress.end_forgotten`).
-/

namespace StepWeave.Progress

/-- What can be noted in the progress of an execution. -/
inductive Operation where
  | resolve (total : Nat)
  | start (now : Instant)
  | stepCompleted
  | complete (now : Instant)
  | fail (now : Instant)
deriving DecidableEq, Repr

namespace Operation

def act : Operation → Progress → Progress
  | resolve total, p => p.resolve total
  | start now, p => p.start now
  | stepCompleted, p => p.stepCompleted
  | complete now, p => p.complete now
  | fail now, p => p.fail now

/-- Whether a status is set without regard to the one before. -/
def reopens : Operation → Bool
  | resolve _ | start _ => true
  | stepCompleted | complete _ | fail _ => false

def ends : Operation → Bool
  | complete _ | fail _ => true
  | resolve _ | start _ | stepCompleted => false

end Operation

/-- The progress of a new execution after the operations. -/
def after (pipeline : String) (layer : Option String) (history : List Operation) : Progress :=
  history.foldl (fun p op => op.act p) (new pipeline layer)

/-- The status with the times of start and end. -/
def outcome (p : Progress) : Status × Option Instant × Option Instant :=
  (p.status, p.startedAt, p.finishedAt)

/-! ## Single operations -/

section

variable {p p' : Progress} {op : Operation}

theorem isTerminal_of_outcome (h : p.outcome = p'.outcome) :
    p.status.isTerminal = p'.status.isTerminal :=
  congrArg (fun o : Status × _ => o.1.isTerminal) h

theorem durationMillis_of_outcome (h : p.outcome = p'.outcome) :
    p.durationMillis = p'.durationMillis := by
  simp only [outcome, Prod.mk.injEq] at h
  rw [durationMillis, durationMillis, h.2.1, h.2.2]

theorem finishedAt_of_durationMillis {millis : Int} (h : p.durationMillis = some millis) :
    p.finishedAt ≠ none := by
  intro hnone
  rw [durationMillis, hnone] at h
  cases hstart : p.startedAt <;> simp [hstart] at h

theorem finish_of_isTerminal (h : p.status.isTerminal = true) (status : Status) (now : Instant) :
    p.finish status now = p :=
  if_pos h

theorem outcome_act (hend : p.status.isTerminal = true) (h : op.reopens = false) :
    (op.act p).outcome = p.outcome := by
  cases op with
  | resolve total => contradiction
  | start now => contradiction
  | stepCompleted => rfl
  | complete now => rw [Operation.act, complete, finish_of_isTerminal hend]
  | fail now => rw [Operation.act, fail, finish_of_isTerminal hend]

theorem not_isTerminal_act (h : op.reopens = true) :
    (op.act p).status.isTerminal = false := by
  cases op with
  | resolve total => rfl
  | start now => rfl
  | stepCompleted => contradiction
  | complete now => contradiction
  | fail now => contradiction

theorem isTerminal_act (h : op.ends = true) : (op.act p).status.isTerminal = true := by
  have hfinish (status : Status) (now : Instant) (hstatus : status.isTerminal = true) :
      (p.finish status now).status.isTerminal = true := by
    unfold finish
    split
    next hend => exact hend
    next => exact hstatus
  cases op with
  | resolve total => contradiction
  | start now => contradiction
  | stepCompleted => contradiction
  | complete now => exact hfinish .completed now rfl
  | fail now => exact hfinish .failed now rfl

/-- The time of the end is set by an operation that ends the execution, and by no other. -/
theorem finishedAt_act (h : op.ends = false) : (op.act p).finishedAt = p.finishedAt := by
  cases op with
  | resolve total => rfl
  | start now => rfl
  | stepCompleted => rfl
  | complete now => contradiction
  | fail now => contradiction

end

/-! ## Histories -/

section

variable {pipeline : String} {layer : Option String} {history later : List Operation}

theorem after_concat (history : List Operation) (op : Operation) :
    after pipeline layer (history ++ [op]) = op.act (after pipeline layer history) := by
  simp [after]

/-- The end stands while nothing reopens the execution. -/
theorem outcome_after (hend : (after pipeline layer history).status.isTerminal = true)
    (h : ∀ op ∈ later, op.reopens = false) :
    (after pipeline layer (history ++ later)).outcome =
      (after pipeline layer history).outcome := by
  induction later using List.reverseRecOn with
  | nil => rw [List.append_nil]
  | append_singleton later op ih =>
      have hkept := ih fun o ho => h o (List.mem_append_left _ ho)
      have hlast := (isTerminal_of_outcome hkept).trans hend
      rw [← List.append_assoc, after_concat, outcome_act hlast (h op (by simp)), hkept]

theorem exists_end_of_finishedAt (h : (after pipeline layer history).finishedAt ≠ none) :
    ∃ op ∈ history, op.ends = true := by
  induction history using List.reverseRecOn with
  | nil => exact absurd rfl h
  | append_singleton history op ih =>
      cases hop : op.ends with
      | true => exact ⟨op, by simp, hop⟩
      | false =>
          rw [after_concat, finishedAt_act hop] at h
          obtain ⟨op', hmem, hop'⟩ := ih h
          exact ⟨op', List.mem_append_left _ hmem, hop'⟩

/-- An execution is not noted as resolved or started after its end. -/
def Orderly (history : List Operation) : Prop :=
  history.Pairwise fun op later => op.ends = true → later.reopens = false

theorem Orderly.isTerminal_after (h : Orderly history) {op : Operation} (hop : op ∈ history)
    (hends : op.ends = true) : (after pipeline layer history).status.isTerminal = true := by
  obtain ⟨front, back, rfl⟩ := List.append_of_mem hop
  have hback : ∀ o ∈ back, o.reopens = false := fun o ho =>
    (List.pairwise_cons.1 (List.pairwise_append.1 h).2.1).1 o ho hends
  have hend : (after pipeline layer (front ++ [op])).status.isTerminal = true := by
    rw [after_concat]
    exact isTerminal_act hends
  rw [List.append_cons, isTerminal_of_outcome (outcome_after hend hback)]
  exact hend

end

/-- The end of an execution, once noted, stands just as long as neither `resolve` nor `start`
is noted after it.  If that is never done then a duration tells that the execution is over,
and it does not change. -/
theorem end_stands_iff (pipeline : String) (layer : Option String)
    (history later : List Operation) :
    ((after pipeline layer history).status.isTerminal = true →
      ((∀ past future, later = past ++ future →
          (after pipeline layer (history ++ past)).outcome =
            (after pipeline layer history).outcome) ↔
        ∀ op ∈ later, op.reopens = false)) ∧
    (Orderly (history ++ later) →
      ∀ millis, (after pipeline layer history).durationMillis = some millis →
        (after pipeline layer history).status.isTerminal = true ∧
          (after pipeline layer (history ++ later)).durationMillis = some millis) := by
  refine ⟨fun hend => ⟨fun h op hop => ?_, ?_⟩, fun h millis hduration => ?_⟩
  · by_contra hreopens
    obtain ⟨past, future, rfl⟩ := List.append_of_mem hop
    have hkept := isTerminal_of_outcome (h (past ++ [op]) future (by simp))
    rw [← List.append_assoc, after_concat, not_isTerminal_act (by simpa using hreopens)] at hkept
    exact absurd (hkept.trans hend) (by simp)
  · rintro h past future rfl
    exact outcome_after hend fun op hop => h op (List.mem_append_left _ hop)
  · obtain ⟨hhistory, -, hlater⟩ := List.pairwise_append.1 h
    obtain ⟨op, hop, hends⟩ := exists_end_of_finishedAt (finishedAt_of_durationMillis hduration)
    have hend : (after pipeline layer history).status.isTerminal = true :=
      Orderly.isTerminal_after hhistory hop hends
    refine ⟨hend, ?_⟩
    rw [durationMillis_of_outcome (outcome_after hend fun o ho => hlater op hop o ho hends)]
    exact hduration

theorem end_stands_iff_search :
    (after "search" none [.resolve 2, .start ⟨5, 0⟩, .fail ⟨7, 0⟩]).status.isTerminal = true ∧
    Orderly ([.resolve 2, .start ⟨5, 0⟩, .fail ⟨7, 0⟩] ++ [.stepCompleted, .complete ⟨9, 0⟩]) ∧
    (after "search" none
      ([.resolve 2, .start ⟨5, 0⟩, .fail ⟨7, 0⟩] ++ [.stepCompleted])).status = .failed ∧
    (after "search" none ([.resolve 2, .start ⟨5, 0⟩, .fail ⟨7, 0⟩] ++
      [.stepCompleted, .complete ⟨9, 0⟩])).durationMillis = some 2000 := by
  have hend :
      (after "search" none [.resolve 2, .start ⟨5, 0⟩, .fail ⟨7, 0⟩]).status.isTerminal = true :=
    rfl
  have horderly : Orderly
      ([.resolve 2, .start ⟨5, 0⟩, .fail ⟨7, 0⟩] ++ [.stepCompleted, .complete ⟨9, 0⟩]) := by
    simp [Orderly, Operation.ends, Operation.reopens]
  obtain ⟨hstands, hduration⟩ := end_stands_iff "search" none
    [.resolve 2, .start ⟨5, 0⟩, .fail ⟨7, 0⟩] [.stepCompleted, .complete ⟨9, 0⟩]
  have hkept := (hstands hend).2 (by decide) [.stepCompleted] [.complete ⟨9, 0⟩] rfl
  exact ⟨hend, horderly, congrArg Prod.fst hkept, (hduration horderly 2000 rfl).2⟩

/-- An execution that has failed and is then noted as started runs again, and has a duration
all the same. -/
theorem end_forgotten :
    (after "search" none [.fail ⟨5, 0⟩]).status = .failed ∧
    (after "search" none [.fail ⟨5, 0⟩, .start ⟨7, 0⟩]).status = .running ∧
    (after "search" none [.fail ⟨5, 0⟩, .start ⟨7, 0⟩]).durationMillis = some (-2000) := by
  decide

end StepWeave.Progress

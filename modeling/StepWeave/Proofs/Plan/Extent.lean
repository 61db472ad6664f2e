import Mathlib.Data.List.Basic
import StepWeave.Plan

/-!
# Where an interceptor lies

An interceptor fits a sequence if its start id occurs there and its end id occurs at or
after the first occurrence of that.  Its span is then its extent, which goes up to the first
such end (`Interceptor.span_eq_ok_iff`), and has a step in it unless the sequence is empty.
-/

namespace StepWeave

/-- The position is one of the span. -/
def Span.Holds (s : Span) (position : Nat) : Prop :=
  s.start ≤ position ∧ position < s.stop

/-- No position is one of both spans. -/
def Span.Disjoint (s t : Span) : Prop :=
  ∀ position, ¬ (s.Holds position ∧ t.Holds position)

theorem Span.Disjoint.symm {s t : Span} (h : s.Disjoint t) : t.Disjoint s :=
  fun position hboth => h position hboth.symm

theorem Span.disjoint_of_le {s t : Span} (h : s.stop ≤ t.start) : s.Disjoint t := by
  rintro position ⟨⟨-, hlt⟩, ⟨hle, -⟩⟩
  omega

/-- Of two spans that share no step the one that starts first ends first. -/
theorem Span.Disjoint.stop_le_start {s t : Span} (h : s.Disjoint t) (hle : s.start ≤ t.start)
    (hlt : t.start < t.stop) : s.stop ≤ t.start := by
  by_contra hover
  exact h t.start ⟨⟨hle, by omega⟩, ⟨Nat.le_refl _, hlt⟩⟩

theorem Interceptor.findIdx?_eq_some_idxOf {ids : List String} {id : String} (h : id ∈ ids) :
    ids.findIdx? (· = id) = some (ids.idxOf id) :=
  List.findIdx?_eq_some_of_exists ⟨id, h, by simp⟩

theorem Interceptor.findIdx?_eq_none_of_not_mem {ids : List String} {id : String} (h : id ∉ ids) :
    ids.findIdx? (· = id) = none := by
  rw [List.findIdx?_eq_none_iff]
  rintro other hother
  exact decide_eq_false fun heq => h (heq ▸ hother)

variable [Types] {R : Type}

namespace Interceptor

/-- The position of the first step with the start id, or that of the first step of all. -/
def first (i : Interceptor R) (ids : List String) : Nat :=
  i.start.elim 0 ids.idxOf

/-- The position after the first step from there on that has the end id, or after the last
step of all. -/
def past (i : Interceptor R) (ids : List String) : Nat :=
  i.stop.elim ids.length fun id => i.first ids + (ids.drop (i.first ids)).idxOf id + 1

def extent (i : Interceptor R) (ids : List String) : Span := ⟨i.first ids, i.past ids⟩

/-- The steps that the interceptor names are there, and the end not only before the start. -/
structure Fits (i : Interceptor R) (ids : List String) : Prop where
  start_mem : ∀ id, i.start = some id → id ∈ ids
  stop_mem : ∀ id, i.stop = some id → id ∈ ids.drop (i.first ids)

variable {i : Interceptor R} {ids : List String}

theorem first_of_none (h : i.start = none) : i.first ids = 0 := by
  rw [first, h]
  rfl

theorem first_of_some {id : String} (h : i.start = some id) : i.first ids = ids.idxOf id := by
  rw [first, h]
  rfl

theorem past_of_none (h : i.stop = none) : i.past ids = ids.length := by
  rw [past, h]
  rfl

theorem past_of_some {id : String} (h : i.stop = some id) :
    i.past ids = i.first ids + (ids.drop (i.first ids)).idxOf id + 1 := by
  rw [past, h]
  rfl

/-! ## Finding a span -/

theorem span_of_unknown_start {id : String} (hstart : i.start = some id) (h : id ∉ ids) :
    i.span ids = .error (.unknownStart i.id id) := by
  simp only [span, hstart, findIdx?_eq_none_of_not_mem h]

/-- The span that starts at a position, up to the end that is found from there on. -/
def spanFrom (i : Interceptor R) (ids : List String) (start : Nat) : Except Defect Span :=
  match i.stop with
  | none => .ok ⟨start, ids.length⟩
  | some id =>
    match (ids.drop start).findIdx? (· = id) with
    | some offset => .ok ⟨start, start + offset + 1⟩
    | none => .error (.misplacedEnd i.id id)

theorem span_of_start_mem (h : ∀ id, i.start = some id → id ∈ ids) :
    i.span ids = i.spanFrom ids (i.first ids) := by
  cases hstart : i.start with
  | none =>
      rw [first_of_none hstart]
      simp only [span, hstart]
      rfl
  | some id =>
      have hfind := findIdx?_eq_some_idxOf (h id hstart)
      rw [first_of_some hstart]
      simp only [span, hstart, hfind]
      rfl

theorem span_of_misplaced_end {id : String} (h : ∀ id, i.start = some id → id ∈ ids)
    (hstop : i.stop = some id) (hmem : id ∉ ids.drop (i.first ids)) :
    i.span ids = .error (.misplacedEnd i.id id) := by
  rw [span_of_start_mem h]
  simp only [spanFrom, hstop, findIdx?_eq_none_of_not_mem hmem]

theorem span_of_fits (h : i.Fits ids) : i.span ids = .ok (i.extent ids) := by
  rw [span_of_start_mem h.start_mem, extent]
  cases hstop : i.stop with
  | none => simp only [spanFrom, hstop, past_of_none hstop]
  | some id =>
      simp only [spanFrom, hstop, findIdx?_eq_some_idxOf (h.stop_mem id hstop),
        past_of_some hstop]

/-- An interceptor gets its extent if it fits, and no span otherwise. -/
theorem span_eq_ok_iff {s : Span} : i.span ids = .ok s ↔ i.Fits ids ∧ i.extent ids = s := by
  constructor
  · intro h
    have hstart : ∀ id, i.start = some id → id ∈ ids := by
      intro id hid
      by_contra hmem
      cases (span_of_unknown_start hid hmem).symm.trans h
    have hstop : ∀ id, i.stop = some id → id ∈ ids.drop (i.first ids) := by
      intro id hid
      by_contra hmem
      cases (span_of_misplaced_end hstart hid hmem).symm.trans h
    have hfits : i.Fits ids := ⟨hstart, hstop⟩
    exact ⟨hfits, Except.ok.inj ((span_of_fits hfits).symm.trans h)⟩
  · rintro ⟨hfits, rfl⟩
    exact span_of_fits hfits

/-! ## Bounds -/

theorem first_le_length (i : Interceptor R) (ids : List String) :
    i.first ids ≤ ids.length := by
  cases hstart : i.start with
  | none =>
      rw [first_of_none hstart]
      exact Nat.zero_le _
  | some id =>
      rw [first_of_some hstart]
      exact List.idxOf_le_length

theorem first_le_past (i : Interceptor R) (ids : List String) : i.first ids ≤ i.past ids := by
  cases hstop : i.stop with
  | none =>
      rw [past_of_none hstop]
      exact i.first_le_length ids
  | some id =>
      rw [past_of_some hstop]
      omega

namespace Fits

theorem past_le_length (h : i.Fits ids) : i.past ids ≤ ids.length := by
  cases hstop : i.stop with
  | none => exact Nat.le_of_eq (past_of_none hstop)
  | some id =>
      have hlt := List.idxOf_lt_length_of_mem (h.stop_mem id hstop)
      rw [List.length_drop] at hlt
      rw [past_of_some hstop]
      omega

/-- An interceptor wraps some step, if there is any. -/
theorem first_lt_past (h : i.Fits ids) (hids : ids ≠ []) : i.first ids < i.past ids := by
  cases hstop : i.stop with
  | some id =>
      rw [past_of_some hstop]
      omega
  | none =>
      rw [past_of_none hstop]
      cases hstart : i.start with
      | none =>
          rw [first_of_none hstart]
          exact List.length_pos_of_ne_nil hids
      | some id =>
          rw [first_of_some hstart]
          exact List.idxOf_lt_length_of_mem (h.start_mem id hstart)

end Fits

end Interceptor

end StepWeave

import Mathlib.Data.List.Basic
import StepWeave.Proofs.Run.Walk

/-!
# The calls of a run

What is true of the calls of every walk: they hand the workspace on from one to
the next (`Relay`), and a list of parts fails by its last call if every part does
(`Walk.EndsBy`).
-/

namespace StepWeave

variable [Types] {R α : Type}

def Call.failure? (c : Call R) : Option Failure := c.callback.failure?

/-- Whether a call is one by which an interceptor resumes after a failure. -/
def Callback.resumes : Callback → Bool
  | onThrow _ _ (.ok .resume) => true
  | _ => false

/-! ## The calls of the parts of a walk -/

section

variable (segment position : Nat) (s : Step R) (i : Interceptor R) (work : Workspace R)
  (mode : Mode) (cause : Failure)

@[simp] theorem Step.calls_walk :
    (s.walk segment position work).calls = [s.call segment position work] := by
  cases h : (s.act work).1 with
  | ok => simp [Step.walk_ok h, Walk.calls, List.filterMap_cons, Record.call?]
  | error failure => simp [Step.walk_error h, Walk.calls, List.filterMap_cons, Record.call?]

@[simp] theorem Step.work_walk :
    (s.walk segment position work).work = (s.call segment position work).exit := by
  cases h : (s.act work).1 with
  | ok => rw [Step.walk_ok h]; rfl
  | error failure => rw [Step.walk_error h]; rfl

@[simp] theorem Step.failure_walk :
    (s.walk segment position work).failure =
      (s.call segment position work).failure? := by
  cases h : (s.act work).1 with
  | ok => rw [Step.walk_ok h, Step.call, h]; rfl
  | error failure => rw [Step.walk_error h, Step.call, h]; rfl

namespace Interceptor

@[simp] theorem calls_walkAfter :
    (i.walkAfter segment work).calls = [i.afterCall segment work] := by
  cases h : (i.after work).1 with
  | ok => simp [walkAfter_ok h, Walk.calls, Record.call?]
  | error failure => simp [walkAfter_error h, Walk.calls, Record.call?]

@[simp] theorem work_walkAfter :
    (i.walkAfter segment work).work = (i.afterCall segment work).exit := by
  cases h : (i.after work).1 with
  | ok => rw [walkAfter_ok h]; rfl
  | error failure => rw [walkAfter_error h]; rfl

@[simp] theorem failure_walkAfter :
    (i.walkAfter segment work).failure = (i.afterCall segment work).failure? := by
  cases h : (i.after work).1 with
  | ok => rw [walkAfter_ok h, afterCall, h]; rfl
  | error failure => rw [walkAfter_error h, afterCall, h]; rfl

theorem calls_walkThrow :
    (i.walkThrow segment mode cause work).calls =
      i.throwCall segment cause work ::
        if mode.runsAfter = true ∧ (i.throwCall segment cause work).callback.resumes = true then
          [i.afterCall segment (i.throwCall segment cause work).exit]
        else [] := by
  cases h : (i.onThrow cause work.context).1 with
  | error failure =>
      have hresumes : (i.throwCall segment cause work).callback.resumes = false := by
        rw [throwCall, h]
        rfl
      simp [walkThrow_error h, hresumes, Walk.calls, Record.call?]
  | ok recovery =>
      have hresumes : (i.throwCall segment cause work).callback.resumes = true ↔
          recovery = .resume := by
        rw [throwCall, h]
        cases recovery <;> simp [Callback.resumes]
      rw [walkThrow_ok h, Walk.calls_logging]
      simp only [hresumes]
      split <;> simp [List.filterMap_cons, Record.call?]

end Interceptor

end

/-! ## Handing the workspace on -/

/-- Every call gets the workspace that the one before it left, the first one
`start`, and the last one leaves `finish`. -/
def Relay : (start : Workspace R) → List (Call R) → (finish : Workspace R) → Prop
  | start, [], finish => finish = start
  | start, c :: rest, finish => c.entry = start ∧ Relay c.exit rest finish

namespace Relay

theorem append {start middle finish : Workspace R} {first second : List (Call R)}
    (hfirst : Relay start first middle) (hsecond : Relay middle second finish) :
    Relay start (first ++ second) finish := by
  induction first generalizing start with
  | nil =>
      obtain rfl : middle = start := hfirst
      exact hsecond
  | cons c rest ih => exact ⟨hfirst.1, ih hfirst.2⟩

theorem single (c : Call R) : Relay c.entry [c] c.exit := ⟨rfl, rfl⟩

theorem drop {start finish : Workspace R} {before after : List (Call R)} {c : Call R}
    (h : Relay start (before ++ c :: after) finish) : Relay c.exit after finish := by
  induction before generalizing start with
  | nil => exact h.2
  | cons d rest ih => exact ih h.2

theorem finish_eq {c : Call R} {calls : List (Call R)} {finish : Workspace R}
    (h : Relay c.exit calls finish) : finish = (calls.getLastD c).exit := by
  induction calls generalizing c with
  | nil => exact h
  | cons d rest ih =>
      rw [List.getLastD_cons]
      exact ih h.2

theorem finish_eq_of_concat {start finish : Workspace R} {front : List (Call R)} {c : Call R}
    (h : Relay start (front ++ [c]) finish) : finish = c.exit := by
  induction front generalizing start with
  | nil => exact h.2
  | cons d rest ih => exact ih h.2

/-- What holds of the start and is kept by every call holds whenever a call is made and at
the end. -/
theorem invariant (Inv : Workspace R → Prop) {start finish : Workspace R} {calls : List (Call R)}
    (h : Relay start calls finish) (hstart : Inv start)
    (hkeeps : ∀ c ∈ calls, Inv c.entry → Inv c.exit) :
    (∀ c ∈ calls, Inv c.entry) ∧ Inv finish := by
  induction calls generalizing start with
  | nil =>
      obtain rfl : finish = start := h
      exact ⟨by simp, hstart⟩
  | cons c rest ih =>
      obtain ⟨rfl, hrest⟩ := h
      have hexit := hkeeps c (by simp) hstart
      obtain ⟨hentries, hfinish⟩ := ih hrest hexit fun d hd => hkeeps d (List.mem_cons_of_mem c hd)
      exact ⟨List.forall_mem_cons.2 ⟨hstart, hentries⟩, hfinish⟩

/-- What the calls contribute to some part of the workspace, each by itself, all of them
contribute in their order. -/
theorem foldl_eq {β γ : Type} (value : Workspace R → β) (add : β → γ → β)
    {contribution? : Call R → Option γ} {start finish : Workspace R} {calls : List (Call R)}
    (h : Relay start calls finish)
    (hcalls : ∀ c ∈ calls, value c.exit = (contribution? c).toList.foldl add (value c.entry)) :
    value finish = (calls.filterMap contribution?).foldl add (value start) := by
  induction calls generalizing start with
  | nil =>
      obtain rfl : finish = start := h
      rfl
  | cons c rest ih =>
      obtain ⟨rfl, hrest⟩ := h
      have hcons : (c :: rest).filterMap contribution? =
          (contribution? c).toList ++ rest.filterMap contribution? := by
        cases hc : contribution? c <;> simp [hc]
      rw [ih hrest fun d hd => hcalls d (List.mem_cons_of_mem c hd), hcalls c (by simp), hcons,
        List.foldl_append]

end Relay

theorem relay_walkEach {go : Nat → α → Workspace R → Walk R}
    (hgo : ∀ index part work, Relay work (go index part work).calls (go index part work).work)
    (index : Nat) (parts : List α) (work : Workspace R) :
    Relay work (walkEach go index parts work).calls (walkEach go index parts work).work := by
  induction parts generalizing index work with
  | nil => rfl
  | cons part rest ih =>
      obtain ⟨-, h⟩ | ⟨-, -, h⟩ | ⟨-, -, h⟩ := walkEach_cons go index part rest work
      · rw [h]
        rfl
      · rw [h]
        exact hgo index part work
      · rw [h, Walk.calls_append, Walk.work_append]
        exact (hgo index part work).append (ih (index + 1) _)

section

variable (segment : Nat) (i : Interceptor R) (steps : List (Step R)) (mode : Mode)
  (work : Workspace R)

theorem Step.relay_walk (position : Nat) (s : Step R) :
    Relay work (s.walk segment position work).calls (s.walk segment position work).work := by
  rw [calls_walk, work_walk]
  exact .single (s.call segment position work)

theorem relay_walkRange :
    Relay work (walkRange segment steps mode work).calls
      (walkRange segment steps mode work).work := by
  rw [walkRange]
  split
  · exact relay_walkEach (fun index s work => s.relay_walk segment work index) 0 steps work
  · rfl

theorem Interceptor.relay_walkAfter :
    Relay work (i.walkAfter segment work).calls (i.walkAfter segment work).work := by
  rw [calls_walkAfter, work_walkAfter]
  exact .single (i.afterCall segment work)

theorem Interceptor.relay_walkThrow (cause : Failure) :
    Relay work (i.walkThrow segment mode cause work).calls
      (i.walkThrow segment mode cause work).work := by
  cases h : (i.onThrow cause work.context).1 with
  | error failure =>
      rw [walkThrow_error h]
      exact .single (i.throwCall segment cause work)
  | ok recovery =>
      rw [walkThrow_ok h, Walk.calls_logging, Walk.work_logging]
      refine Relay.append (.single (i.throwCall segment cause work)) ?_
      split
      · exact i.relay_walkAfter segment _
      · rfl

theorem Interceptor.relay_walkMode :
    Relay work (i.walkMode segment steps mode work).calls
      (i.walkMode segment steps mode work).work := by
  have hrange := relay_walkRange segment steps mode work
  cases h : (walkRange segment steps mode work).failure with
  | some cause =>
      rw [walkMode_of_failure h, Walk.calls_append, Walk.work_append]
      exact hrange.append (i.relay_walkThrow segment mode _ cause)
  | none =>
      rw [walkMode_of_none h]
      split
      · rw [Walk.calls_append, Walk.work_append]
        exact hrange.append (i.relay_walkAfter segment _)
      · exact hrange

theorem Interceptor.relay_walk :
    Relay work (i.walk segment steps work).calls (i.walk segment steps work).work := by
  cases h : (i.before work.context).1 with
  | error failure =>
      rw [walk_error h]
      exact .single (i.beforeCall segment work)
  | ok mode =>
      rw [walk_ok h, Walk.calls_logging, Walk.work_logging]
      exact Relay.append (.single (i.beforeCall segment work))
        (i.relay_walkMode segment steps mode _)

theorem Segment.relay_walk (s : Segment R) :
    Relay work (s.walk segment work).calls (s.walk segment work).work := by
  cases s with
  | plain step => exact step.relay_walk segment work 0
  | intercepted i steps => exact i.relay_walk segment steps work

end

theorem Plan.relay_run (p : Plan R) (work : Workspace R) :
    Relay work (p.run work).calls (p.run work).work := by
  rw [calls_run, work_run]
  exact relay_walkEach (fun index s work => s.relay_walk index work) 0 p.segments work

/-! ## Ending with a failure -/

namespace Walk

/-- A walk ends without a failure and none of its calls gives one, or it ends with
the failure that its last call gives, and none before does. -/
def EndsBy (gives : Call R → Option Failure) (w : Walk R) : Prop :=
  (w.failure = none ∧ ∀ c ∈ w.calls, gives c = none) ∨
    ∃ front c failure, w.calls = front ++ [c] ∧ (∀ d ∈ front, gives d = none) ∧
      gives c = some failure ∧ w.failure = some failure

namespace EndsBy

variable {gives : Call R → Option Failure} {w later : Walk R}

theorem single {c : Call R} (hcalls : w.calls = [c]) (hfailure : w.failure = gives c) :
    w.EndsBy gives := by
  cases h : gives c with
  | none => exact .inl ⟨hfailure.trans h, by simp [hcalls, h]⟩
  | some failure => exact .inr ⟨[], c, failure, hcalls, by simp, h, hfailure.trans h⟩

theorem of_calls_eq {front : List (Call R)} (hcalls : w.calls = front ++ later.calls)
    (hfailure : w.failure = later.failure) (hfront : ∀ c ∈ front, gives c = none)
    (h : later.EndsBy gives) : w.EndsBy gives := by
  obtain ⟨hnone, hlater⟩ | ⟨front', c, failure, hlast, hfront', hgives, hsome⟩ := h
  · refine .inl ⟨hfailure.trans hnone, fun c hc => ?_⟩
    rw [hcalls, List.mem_append] at hc
    exact hc.elim (hfront c) (hlater c)
  · refine .inr ⟨front ++ front', c, failure, ?_, fun d hd => ?_, hgives, hfailure.trans hsome⟩
    · rw [hcalls, hlast, List.append_assoc]
    · exact (List.mem_append.1 hd).elim (hfront d) (hfront' d)

theorem append (hw : ∀ c ∈ w.calls, gives c = none) (h : later.EndsBy gives) :
    (w.append later).EndsBy gives :=
  h.of_calls_eq (calls_append w later) rfl hw

theorem none_of_mem (h : w.EndsBy gives) (hfailure : w.failure = none) :
    ∀ c ∈ w.calls, gives c = none := by
  obtain ⟨-, hnone⟩ | ⟨-, -, failure, -, -, -, hsome⟩ := h
  · exact hnone
  · rw [hfailure] at hsome
    contradiction

theorem failure_eq_some_iff (h : w.EndsBy gives) {e : Failure} :
    w.failure = some e ↔ ∃ c ∈ w.calls, gives c = some e := by
  obtain ⟨hnone, hcalls⟩ | ⟨front, c, failure, hcalls, hfront, hgives, hfailure⟩ := h
  · constructor
    · intro he
      rw [hnone] at he
      contradiction
    · rintro ⟨c, hc, he⟩
      rw [hcalls c hc] at he
      contradiction
  · rw [hfailure, hcalls]
    constructor
    · intro he
      exact ⟨c, by simp, hgives.trans he⟩
    · rintro ⟨d, hd, he⟩
      rw [List.mem_append, List.mem_singleton] at hd
      rcases hd with hd | rfl
      · rw [hfront d hd] at he
        contradiction
      · exact hgives.symm.trans he

theorem eq_nil_of_calls_eq (h : w.EndsBy gives) {front rest : List (Call R)} {c : Call R}
    (hcalls : w.calls = front ++ c :: rest) (hgives : gives c ≠ none) : rest = [] := by
  obtain ⟨-, hnone⟩ | ⟨front', last, failure, hcalls', hfront', -, -⟩ := h
  · exact absurd (hnone c (by simp [hcalls])) hgives
  · obtain rfl | ⟨rest', d, rfl⟩ := List.eq_nil_or_concat' rest
    · rfl
    · -- `c` stands before the last call, which is `d`.
      have hsplit : front ++ c :: rest' = front' := by
        rw [hcalls, ← List.cons_append, ← List.append_assoc] at hcalls'
        exact (List.append_inj' hcalls' rfl).1
      exact absurd (hfront' c (by simp [← hsplit])) hgives

theorem congr {gives' : Call R → Option Failure} (h : w.EndsBy gives)
    (heq : ∀ c ∈ w.calls, gives c = gives' c) : w.EndsBy gives' := by
  obtain ⟨hfailure, hnone⟩ | ⟨front, c, failure, hcalls, hfront, hgives, hfailure⟩ := h
  · exact .inl ⟨hfailure, fun c hc => heq c hc ▸ hnone c hc⟩
  · rw [hcalls] at heq
    refine .inr ⟨front, c, failure, hcalls, fun d hd => ?_, ?_, hfailure⟩
    · rw [← heq d (List.mem_append_left _ hd)]
      exact hfront d hd
    · rw [← heq c (by simp)]
      exact hgives

end EndsBy

theorem endsBy_walkEach {go : Nat → α → Workspace R → Walk R} {gives : Call R → Option Failure}
    {index : Nat} {parts : List α}
    (hgo : ∀ m part, parts[m]? = some part → ∀ work, (go (index + m) part work).EndsBy gives)
    (work : Workspace R) : (walkEach go index parts work).EndsBy gives := by
  induction parts generalizing index work with
  | nil => exact .inl ⟨rfl, by simp [walkEach]⟩
  | cons part rest ih =>
      have hpart := hgo 0 part rfl work
      have hrest (m : Nat) (part' : α) (h : rest[m]? = some part') (work : Workspace R) :
          (go (index + 1 + m) part' work).EndsBy gives := by
        rw [show index + 1 + m = index + (m + 1) by omega]
        exact hgo (m + 1) part' (by simpa using h) work
      obtain ⟨-, h⟩ | ⟨-, -, h⟩ | ⟨-, hfailure, h⟩ := walkEach_cons go index part rest work
      · rw [h]
        exact .inl ⟨rfl, by simp⟩
      · rw [h]
        exact hpart
      · rw [h]
        exact .append (hpart.none_of_mem hfailure) (ih hrest _)

theorem endsBy_walkRange (segment : Nat) (steps : List (Step R)) (mode : Mode)
    (work : Workspace R) : (walkRange segment steps mode work).EndsBy Call.failure? := by
  rw [walkRange]
  split
  · exact endsBy_walkEach (fun _ _ _ _ => .single (Step.calls_walk ..) (Step.failure_walk ..)) work
  · exact .inl ⟨rfl, by simp⟩

end Walk

end StepWeave

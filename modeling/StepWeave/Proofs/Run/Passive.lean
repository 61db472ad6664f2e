import StepWeave.Proofs.Plan.Selection
import StepWeave.Proofs.Run.Log
import StepWeave.Proofs.Run.Origin

/-!
# Runs without passive interceptors

A passive interceptor lets everything run and changes nothing.  The steps it wraps run the
same when they stand in the plan by themselves, so a run without it makes the same calls but
for those of the interceptor (`Plan.thins_run`).
-/

namespace StepWeave

variable [Types] {R α β : Type}

/-- What an interceptor is that leaves all its callbacks at their defaults. -/
structure Interceptor.Passive (i : Interceptor R) : Prop where
  before : ∀ c, i.before c = (.ok .all, c)
  after : ∀ work, i.after work = (.ok (), work)
  onThrow : ∀ failure c, i.onThrow failure c = (.error failure, c)

theorem Interceptor.passive_mk (id : String) (start stop : Option String) :
    ({ id, start, stop } : Interceptor R).Passive :=
  ⟨fun _ => rfl, fun _ => rfl, fun _ _ => rfl⟩

/-! ## Calls at other places -/

def Callback.unplaced : Callback → Callback
  | step _ id answer => step 0 id answer
  | callback => callback

namespace Call

/-- The call without the place in its plan at which it was made. -/
def unplaced (c : Call R) : Call R := { c with segment := 0, callback := c.callback.unplaced }

theorem events_unplaced (c : Call R) : c.unplaced.events = c.events := by
  obtain ⟨segment, callback, entry, exit, pause⟩ := c
  cases callback with
  | step position id answer => cases answer <;> rfl
  | before | onThrow | after => rfl

theorem flatMap_events_map_unplaced (calls : List (Call R)) :
    (calls.map unplaced).flatMap events = calls.flatMap events := by
  rw [List.flatMap_map]
  exact congrArg (calls.flatMap ·) (funext events_unplaced)

theorem totalPause_map_unplaced (calls : List (Call R)) :
    totalPause (calls.map unplaced) = totalPause calls := by
  rw [totalPause, totalPause, List.foldr_map]
  rfl

theorem totalPause_filter {calls : List (Call R)} {keep : Call R → Bool}
    (h : ∀ c ∈ calls, keep c = false → c.pause = 0) :
    totalPause (calls.filter keep) = totalPause calls := by
  induction calls with
  | nil => rfl
  | cons c rest ih =>
      have hrest := ih fun d hd => h d (List.mem_cons_of_mem c hd)
      cases hkeep : keep c with
      | true =>
          rw [List.filter_cons_of_pos hkeep]
          exact congrArg (c.pause + ·) hrest
      | false =>
          have hpause : totalPause (c :: rest) = c.pause + totalPause rest := rfl
          rw [List.filter_cons_of_neg (by simp [hkeep]), hrest, hpause, h c (by simp) hkeep,
            Nat.zero_add]

end Call

/-! ## Walks that lack some calls -/

namespace Walk

/-- `thin` went as `w` did, but without the calls of `w` that `hides` picks, and at other
places of a plan. -/
structure Thins (hides : Call R → Bool) (w thin : Walk R) : Prop where
  failure : thin.failure = w.failure
  work : thin.work = w.work
  completed : thin.completed = w.completed
  calls : thin.calls.map Call.unplaced = (w.calls.filter (!hides ·)).map Call.unplaced

namespace Thins

variable {hides : Call R → Bool} {w thin later thinLater : Walk R}

theorem idle (work : Workspace R) : Thins hides { work } { work } := ⟨rfl, rfl, rfl, rfl⟩

theorem append (h : Thins hides w thin) (hlater : Thins hides later thinLater) :
    Thins hides (w.append later) (thin.append thinLater) where
  failure := hlater.failure
  work := hlater.work
  completed := by rw [completed_append, completed_append, h.completed, hlater.completed]
  calls := by
    rw [calls_append, calls_append, List.map_append, List.filter_append, List.map_append,
      h.calls, hlater.calls]

theorem andThen (h : Thins hides w thin) {next thinNext : Workspace R → Walk R}
    (hnext : Thins hides (next w.work) (thinNext w.work)) :
    Thins hides (w.andThen next) (thin.andThen thinNext) := by
  cases hfailure : w.failure with
  | some failure =>
      rw [andThen_of_failure hfailure, andThen_of_failure (h.failure.trans hfailure)]
      exact h
  | none =>
      rw [andThen_of_none hfailure, andThen_of_none (h.failure.trans hfailure), h.work]
      exact h.append hnext

theorem congr {hides' : Call R → Bool} (h : Thins hides w thin)
    (heq : ∀ c ∈ w.calls, hides c = hides' c) : Thins hides' w thin := by
  refine ⟨h.failure, h.work, h.completed, ?_⟩
  rw [h.calls, List.filter_congr fun c hc => congrArg (!·) (heq c hc)]

theorem filter_eq_nil {calls : List (Call R)} (h : ∀ c ∈ calls, hides c = true) :
    calls.filter (!hides ·) = [] := by
  rw [List.filter_eq_nil_iff]
  intro c hc
  simp [h c hc]

theorem logging (h : Thins hides w thin) {records thinRecords : List (Record R)}
    (hrecords : (thinRecords.filterMap Record.call?).map Call.unplaced =
      ((records.filterMap Record.call?).filter (!hides ·)).map Call.unplaced) :
    Thins hides (w.logging records) (thin.logging thinRecords) := by
  refine ⟨h.failure, h.work, h.completed, ?_⟩
  rw [calls_logging, calls_logging, List.map_append, List.filter_append, List.map_append, h.calls,
    hrecords]

/-- Calls that are all hidden can be missing at the beginning. -/
theorem logging_hidden (h : Thins hides w thin) {records : List (Record R)}
    (hrecords : ∀ c ∈ records.filterMap Record.call?, hides c = true) :
    Thins hides (w.logging records) thin := by
  refine ⟨h.failure, h.work, h.completed, ?_⟩
  rw [calls_logging, List.filter_append, filter_eq_nil hrecords, List.nil_append, h.calls]

/-- A part that changes nothing and makes only hidden calls can be missing at the end. -/
theorem append_hidden (h : Thins hides w thin) (hfailure : later.failure = w.failure)
    (hwork : later.work = w.work) (hcompleted : later.completed = 0)
    (hcalls : ∀ c ∈ later.calls, hides c = true) : Thins hides (w.append later) thin where
  failure := h.failure.trans hfailure.symm
  work := h.work.trans hwork.symm
  completed := by rw [completed_append, hcompleted, Nat.add_zero, h.completed]
  calls := by
    rw [calls_append, List.filter_append, filter_eq_nil hcalls, List.append_nil, h.calls]

end Thins

/-- Lists of parts are compared part by part, each with the parts that stand for it. -/
theorem thins_walkEach {hides : Call R → Bool} {go : Nat → α → Workspace R → Walk R}
    {thinGo : Nat → β → Workspace R → Walk R} {f : α → List β} {parts : List α} {index : Nat}
    (h : ∀ n part, parts[n]? = some part → ∀ place work, work.context.finished = false →
      Thins hides (go (index + n) part work) (walkEach thinGo place (f part) work))
    (place : Nat) (work : Workspace R) :
    Thins hides (walkEach go index parts work) (walkEach thinGo place (parts.flatMap f) work) := by
  induction parts generalizing index place work with
  | nil => exact .idle work
  | cons part rest ih =>
      cases hfinished : work.context.finished with
      | true =>
          rw [walkEach_of_finished go index hfinished, walkEach_of_finished thinGo place hfinished]
          exact .idle work
      | false =>
          have hrest (n : Nat) (part' : α) (hn : rest[n]? = some part') :=
            h (n + 1) part' (by simpa using hn)
          have hcons : walkEach go index (part :: rest) work =
              (go index part work).andThen (walkEach go (index + 1) rest) := by
            simp [walkEach, hfinished]
          rw [hcons, List.flatMap_cons, walkEach_append]
          refine (h 0 part rfl place work hfinished).andThen (ih ?_ _ _)
          intro n part' hn
          rw [show index + 1 + n = index + (n + 1) by omega]
          exact hrest n part' hn

theorem walkEach_singleton {go : Nat → α → Workspace R → Walk R} {work : Workspace R}
    (h : work.context.finished = false) (index : Nat) (part : α) :
    walkEach go index [part] work = go index part work := by
  cases hfailure : (go index part work).failure with
  | some failure => simp [walkEach, h, andThen_of_failure hfailure]
  | none => simp [walkEach, h, andThen_of_none hfailure, append_idle hfailure]

end Walk

/-! ## The same walk at another place -/

section

variable (segment position place place' : Nat) (s : Step R) (i : Interceptor R)
  (steps : List (Step R)) (mode : Mode) (cause : Failure) (work : Workspace R)

theorem Step.thins_walk {hides : Call R → Bool}
    (h : hides (s.call segment position work) = false) :
    (s.walk segment position work).Thins hides (s.walk place place' work) := by
  cases hact : (s.act work).1 with
  | ok =>
      rw [walk_ok hact, walk_ok hact]
      refine ⟨rfl, rfl, rfl, ?_⟩
      simp [Walk.calls, List.filterMap_cons, Record.call?, h]
      rfl
  | error failure =>
      rw [walk_error hact, walk_error hact]
      refine ⟨rfl, rfl, rfl, ?_⟩
      simp [Walk.calls, List.filterMap_cons, Record.call?, h]
      rfl

theorem thins_walkRange :
    (walkRange segment steps mode work).Thins (fun _ => false)
      (walkRange place steps mode work) := by
  rw [walkRange, walkRange]
  split
  · have h : (walkEach (Step.walk segment) 0 steps work).Thins (fun _ => false)
        (walkEach (Step.walk place) 0 (steps.flatMap fun s => [s]) work) := by
      apply Walk.thins_walkEach
      intro n s _ m work hfinished
      rw [Walk.walkEach_singleton hfinished]
      exact s.thins_walk segment _ place m work rfl
    rwa [List.flatMap_singleton'] at h
  · exact .idle work

namespace Interceptor

theorem thins_walkAfter :
    (i.walkAfter segment work).Thins (fun _ => false) (i.walkAfter place work) := by
  cases h : (i.after work).1 with
  | ok =>
      rw [walkAfter_ok h, walkAfter_ok h]
      exact ⟨rfl, rfl, rfl, rfl⟩
  | error failure =>
      rw [walkAfter_error h, walkAfter_error h]
      exact ⟨rfl, rfl, rfl, rfl⟩

theorem thins_walkThrow :
    (i.walkThrow segment mode cause work).Thins (fun _ => false)
      (i.walkThrow place mode cause work) := by
  cases h : (i.onThrow cause work.context).1 with
  | error failure =>
      rw [walkThrow_error h, walkThrow_error h]
      exact ⟨rfl, rfl, rfl, rfl⟩
  | ok recovery =>
      rw [walkThrow_ok h, walkThrow_ok h]
      refine .logging ?_ rfl
      split
      · exact i.thins_walkAfter segment place _
      · exact .idle _

theorem thins_walkMode :
    (i.walkMode segment steps mode work).Thins (fun _ => false)
      (i.walkMode place steps mode work) := by
  have hrange := thins_walkRange segment place steps mode work
  cases h : (walkRange segment steps mode work).failure with
  | some cause =>
      rw [walkMode_of_failure h, walkMode_of_failure (hrange.failure.trans h), hrange.work]
      exact hrange.append (i.thins_walkThrow segment place mode cause _)
  | none =>
      rw [walkMode_of_none h, walkMode_of_none (hrange.failure.trans h), hrange.work]
      split
      · exact hrange.append (i.thins_walkAfter segment place _)
      · exact hrange

theorem thins_walk :
    (i.walk segment steps work).Thins (fun _ => false) (i.walk place steps work) := by
  cases h : (i.before work.context).1 with
  | error failure =>
      rw [walk_error h, walk_error h]
      exact ⟨rfl, rfl, rfl, rfl⟩
  | ok mode =>
      rw [walk_ok h, walk_ok h]
      exact .logging (i.thins_walkMode segment place steps mode _) rfl

end Interceptor

end

/-! ## Passive interceptors -/

/-- Whether a call at a segment is one of an interceptor that `keep` does not select. -/
def Segment.hides (keep : Interceptor R → Bool) : Segment R → Callback → Bool
  | .plain _, _ => false
  | .intercepted _ _, .step .. => false
  | .intercepted i _, _ => !keep i

/-- Under a passive interceptor steps run as they do by themselves. -/
theorem Interceptor.Passive.thins_walk {i : Interceptor R} (h : i.Passive)
    {keep : Interceptor R → Bool} (hkeep : keep i = false) (segment place : Nat)
    (steps : List (Step R)) (work : Workspace R) :
    (i.walk segment steps work).Thins (fun c => (Segment.intercepted i steps).hides keep c.callback)
      (walkEach Segment.walk place (steps.map .plain) work) := by
  have hbefore : (i.before work.context).1 = .ok .all := by rw [h.before]
  have hexit : (i.beforeCall segment work).exit = work := by rw [beforeCall, h.before]
  have hrange : (walkRange segment steps .all work).Thins
      (fun c => (Segment.intercepted i steps).hides keep c.callback)
      (walkEach Segment.walk place (steps.map .plain) work) := by
    rw [List.map_eq_flatMap]
    apply Walk.thins_walkEach
    intro n s _ m work hfinished
    rw [Walk.walkEach_singleton hfinished]
    exact s.thins_walk segment _ m 0 work rfl
  rw [walk_ok hbefore, hexit]
  apply Walk.Thins.logging_hidden
  · cases hfailure : (walkRange segment steps .all work).failure with
    | some cause =>
        rw [walkMode_of_failure hfailure]
        have hthrow (work : Workspace R) : (i.onThrow cause work.context).1 = .error cause := by
          rw [h.onThrow]
        rw [walkThrow_error (hthrow _)]
        refine hrange.append_hidden hfailure.symm ?_ rfl ?_
        · simp [throwCall, h.onThrow]
        · simp [Walk.calls, Record.call?, throwCall, Segment.hides, hkeep]
    | none =>
        have hruns : Mode.all.runsAfter = true := rfl
        rw [walkMode_of_none hfailure, if_pos hruns]
        have hafter (work : Workspace R) : (i.after work).1 = .ok () := by rw [h.after]
        rw [walkAfter_ok (hafter _)]
        refine hrange.append_hidden hfailure.symm ?_ rfl ?_
        · simp [h.after]
        · simp [Walk.calls, Record.call?, afterCall, Segment.hides, hkeep]
  · simp [Record.call?, beforeCall, Segment.hides, hkeep]

theorem Segment.thins_walk {keep : Interceptor R → Bool}
    (hkeep : ∀ i : Interceptor R, keep i = false → i.Passive) (s : Segment R)
    (segment place : Nat) {work : Workspace R} (hfinished : work.context.finished = false) :
    (s.walk segment work).Thins (fun c => s.hides keep c.callback)
      (walkEach Segment.walk place (s.selecting keep) work) := by
  cases s with
  | plain step =>
      rw [selecting, Walk.walkEach_singleton hfinished]
      exact step.thins_walk segment 0 place 0 work rfl
  | intercepted i steps =>
      rw [selecting]
      split
      · next hselected =>
        rw [Walk.walkEach_singleton hfinished]
        refine (i.thins_walk segment place steps work).congr fun c _ => ?_
        cases hcallback : c.callback <;> simp [hides, hselected]
      · next hdropped =>
        have hdropped : keep i = false := by simpa using hdropped
        exact (hkeep i hdropped).thins_walk hdropped segment place steps work

theorem Segment.Makes.pause_of_hides {s : Segment R} {index : Nat} {c : Call R}
    (h : s.Makes index c) {keep : Interceptor R → Bool}
    (hhides : s.hides keep c.callback = true) : c.pause = 0 := by
  cases h with
  | plain => contradiction
  | wrapped => contradiction
  | before => rfl
  | onThrow => rfl
  | after => rfl

namespace Plan

/-- Whether a call of a run of the plan is one of an interceptor that `keep` does not
select. -/
def hides (p : Plan R) (keep : Interceptor R → Bool) (c : Call R) : Bool :=
  p.segments[c.segment]?.any fun s => s.hides keep c.callback

variable {keep : Interceptor R → Bool}
  (hkeep : ∀ i : Interceptor R, keep i = false → i.Passive) (p : Plan R) (work : Workspace R)
include hkeep

/-- Without passive interceptors a run makes the same calls but for theirs. -/
theorem thins_run : (p.run work).Thins (p.hides keep) ((p.selecting keep).run work) := by
  have hwalk : (walkSegments p.segments work).Thins (p.hides keep)
      (walkSegments (p.selecting keep).segments work) := by
    apply Walk.thins_walkEach
    intro k s hs place work hfinished
    refine (s.thins_walk hkeep (0 + k) place hfinished).congr fun c hc => ?_
    rw [hides, Segment.segment_of_mem_calls_walk hc, Nat.zero_add, hs]
    rfl
  refine ⟨?_, ?_, ?_, ?_⟩
  · rw [failure_run, failure_run, hwalk.failure]
  · rw [work_run, work_run, hwalk.work]
  · rw [completed_run, completed_run, hwalk.completed]
  · rw [calls_run, calls_run, hwalk.calls]

theorem pause_selecting : ((p.selecting keep).run work).pause = (p.run work).pause := by
  have hpause := congrArg Call.totalPause (p.thins_run hkeep work).calls
  rw [Call.totalPause_map_unplaced, Call.totalPause_map_unplaced, Call.totalPause_filter] at hpause
  · exact hpause
  · intro c hc hhides
    obtain ⟨s, hs, hmakes⟩ := makes_of_mem_calls hc
    rw [hides, hs] at hhides
    exact hmakes.pause_of_hides (by simpa using hhides)

theorem stopEvents_selecting : (p.selecting keep).stopEvents work = p.stopEvents work := by
  have h := p.thins_run hkeep work
  rw [stopEvents, stopEvents, h.failure, h.work, h.completed]

theorem events_selecting :
    ((p.selecting keep).run work).events =
      ((p.run work).calls.filter (!p.hides keep ·)).flatMap Call.events ++ p.stopEvents work := by
  rw [events_run_eq, stopEvents_selecting hkeep, ← Call.flatMap_events_map_unplaced,
    (p.thins_run hkeep work).calls, Call.flatMap_events_map_unplaced]

end Plan

end StepWeave

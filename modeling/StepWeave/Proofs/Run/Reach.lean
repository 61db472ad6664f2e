import Mathlib.Data.List.Basic
import StepWeave.Proofs.Run.Trace

/-!
# Which segments a run reaches

A run reaches a segment if those before it end without a failure and leave the
context unfinished (`Plan.Reaches`).  The calls of a segment that is reached stand
together between those of earlier and later ones (`Plan.calls_run_of_reaches`), and
one that is not reached has none (`Plan.segment_lt_of_not_reaches`).
-/

namespace StepWeave

variable [Types] {R α : Type}

theorem mem_calls_walkEach {go : Nat → α → Workspace R → Walk R} {index : Nat}
    {parts : List α} {work : Workspace R} {c : Call R}
    (h : c ∈ (walkEach go index parts work).calls) :
    ∃ m part start, parts[m]? = some part ∧ start.context.finished = false ∧
      c ∈ (go (index + m) part start).calls := by
  induction parts generalizing index work with
  | nil => simp [walkEach] at h
  | cons part rest ih =>
      obtain ⟨-, heq⟩ | ⟨hfinished, -, heq⟩ | ⟨hfinished, -, heq⟩ :=
        walkEach_cons go index part rest work
      · simp [heq] at h
      · rw [heq] at h
        exact ⟨0, part, work, rfl, hfinished, h⟩
      · rw [heq, Walk.calls_append, List.mem_append] at h
        rcases h with h | h
        · exact ⟨0, part, work, rfl, hfinished, h⟩
        · obtain ⟨m, part', start, hpart, hstart, hc⟩ := ih h
          refine ⟨m + 1, part', start, by simpa using hpart, hstart, ?_⟩
          rwa [show index + (m + 1) = index + 1 + m by omega]

section

variable {segment : Nat} {i : Interceptor R} {steps : List (Step R)} {mode : Mode}
  {work : Workspace R} {c : Call R}

theorem exists_step_of_mem_calls_walkRange
    (h : c ∈ (walkRange segment steps mode work).calls) :
    ∃ (n : Nat) (s : Step R), mode.runsSteps = true ∧ steps[n]? = some s ∧
      c.entry.context.finished = false ∧ c = s.call segment n c.entry := by
  rw [walkRange] at h
  split at h
  next hruns =>
    obtain ⟨n, s, start, hs, hstart, hc⟩ := mem_calls_walkEach h
    obtain rfl : c = s.call segment n start := by simpa using hc
    exact ⟨n, s, hruns, hs, hstart, rfl⟩
  next => simp at h

theorem segment_of_mem_calls_walkRange (h : c ∈ (walkRange segment steps mode work).calls) :
    c.segment = segment := by
  obtain ⟨n, s, -, -, -, heq⟩ := exists_step_of_mem_calls_walkRange h
  rw [heq]
  rfl

theorem Interceptor.segment_of_mem_calls_walkThrow {cause : Failure}
    (h : c ∈ (i.walkThrow segment mode cause work).calls) : c.segment = segment := by
  rw [calls_walkThrow, List.mem_cons] at h
  rcases h with rfl | h
  · rfl
  · split at h
    · rw [List.mem_singleton.1 h]
      rfl
    · simp at h

theorem Interceptor.segment_of_mem_calls_walkMode
    (h : c ∈ (i.walkMode segment steps mode work).calls) : c.segment = segment := by
  cases hrange : (walkRange segment steps mode work).failure with
  | some cause =>
      rw [walkMode_of_failure hrange, Walk.calls_append, List.mem_append] at h
      exact h.elim segment_of_mem_calls_walkRange segment_of_mem_calls_walkThrow
  | none =>
      rw [walkMode_of_none hrange] at h
      split at h
      · rw [Walk.calls_append, List.mem_append, calls_walkAfter, List.mem_singleton] at h
        rcases h with h | rfl
        · exact segment_of_mem_calls_walkRange h
        · rfl
      · exact segment_of_mem_calls_walkRange h

theorem Interceptor.segment_of_mem_calls_walk (h : c ∈ (i.walk segment steps work).calls) :
    c.segment = segment := by
  cases hbefore : (i.before work.context).1 with
  | error failure =>
      obtain rfl : c = i.beforeCall segment work := by
        simpa [walk_error hbefore, Walk.calls, Record.call?] using h
      rfl
  | ok mode =>
      rw [walk_ok hbefore, Walk.calls_logging, List.mem_append] at h
      rcases h with h | h
      · obtain rfl : c = i.beforeCall segment work := by
          simpa [List.filterMap_cons, Record.call?] using h
        rfl
      · exact segment_of_mem_calls_walkMode h

theorem Segment.segment_of_mem_calls_walk {s : Segment R}
    (h : c ∈ (s.walk segment work).calls) : c.segment = segment := by
  cases s with
  | intercepted i steps => exact Interceptor.segment_of_mem_calls_walk h
  | plain step =>
      rw [Segment.walk, Step.calls_walk, List.mem_singleton] at h
      rw [h]
      rfl

theorem segment_of_mem_calls_walkEach {index : Nat} {segments : List (Segment R)}
    (h : c ∈ (walkEach Segment.walk index segments work).calls) :
    index ≤ c.segment ∧ c.segment < index + segments.length := by
  obtain ⟨m, s, start, hs, -, hc⟩ := mem_calls_walkEach h
  obtain ⟨hm, -⟩ := List.getElem?_eq_some_iff.1 hs
  rw [Segment.segment_of_mem_calls_walk hc]
  omega

end

namespace Plan

variable {p : Plan R} {work start : Workspace R} {k : Nat} {s : Segment R}

/-- The run of `p` on `work` comes to the segment `k` with `start`, not finished. -/
def Reaches (p : Plan R) (work : Workspace R) (k : Nat) (start : Workspace R) : Prop :=
  (walkSegments (p.segments.take k) work).failure = none ∧
    (walkSegments (p.segments.take k) work).work = start ∧ start.context.finished = false

theorem walkSegments_eq_andThen (hs : p.segments[k]? = some s) (work : Workspace R) :
    walkSegments p.segments work =
      (walkSegments (p.segments.take k) work).andThen
        (walkEach Segment.walk k (s :: p.segments.drop (k + 1))) := by
  obtain ⟨hk, rfl⟩ := List.getElem?_eq_some_iff.1 hs
  have hlength : 0 + (p.segments.take k).length = k := by
    rw [List.length_take]
    omega
  have happend := walkEach_append Segment.walk 0 (p.segments.take k)
    (p.segments[k] :: p.segments.drop (k + 1)) work
  have hsplit : p.segments.take k ++ p.segments[k] :: p.segments.drop (k + 1) = p.segments := by
    rw [List.getElem_cons_drop, List.take_append_drop]
  rwa [hsplit, hlength] at happend

theorem walkSegments_of_reaches (hs : p.segments[k]? = some s) (h : p.Reaches work k start) :
    walkSegments p.segments work =
      (walkSegments (p.segments.take k) work).append
        ((s.walk k start).andThen (walkEach Segment.walk (k + 1) (p.segments.drop (k + 1)))) := by
  obtain ⟨hfailure, rfl, hstart⟩ := h
  rw [walkSegments_eq_andThen hs, Walk.andThen_of_none hfailure, walkEach, hstart]
  rfl

theorem segment_lt_of_mem_take {c : Call R}
    (hc : c ∈ (walkSegments (p.segments.take k) work).calls) : c.segment < k := by
  have hlt := (segment_of_mem_calls_walkEach hc).2
  rw [List.length_take] at hlt
  omega

theorem calls_run_of_reaches (hs : p.segments[k]? = some s) (h : p.Reaches work k start) :
    ∃ prior later, (p.run work).calls = prior ++ (s.walk k start).calls ++ later ∧
      (∀ c ∈ prior, c.segment < k) ∧ ∀ c ∈ later, k < c.segment := by
  rw [calls_run, walkSegments_of_reaches hs h, Walk.calls_append]
  cases hfailure : (s.walk k start).failure with
  | some failure =>
      rw [Walk.andThen_of_failure hfailure]
      exact ⟨_, [], by rw [List.append_nil], fun c hc => segment_lt_of_mem_take hc, by simp⟩
  | none =>
      rw [Walk.andThen_of_none hfailure, Walk.calls_append, ← List.append_assoc]
      exact ⟨_, _, rfl, fun c hc => segment_lt_of_mem_take hc,
        fun c hc => (segment_of_mem_calls_walkEach hc).1⟩

theorem segment_lt_of_not_reaches (hs : p.segments[k]? = some s)
    (h : ¬∃ start, p.Reaches work k start) : ∀ c ∈ (p.run work).calls, c.segment < k := by
  have hcalls : (p.run work).calls = (walkSegments (p.segments.take k) work).calls := by
    rw [calls_run, walkSegments_eq_andThen hs]
    cases hfailure : (walkSegments (p.segments.take k) work).failure with
    | some failure => rw [Walk.andThen_of_failure hfailure]
    | none =>
        have hfinished : (walkSegments (p.segments.take k) work).work.context.finished = true := by
          by_contra hfinished
          exact h ⟨_, hfailure, rfl, by simpa using hfinished⟩
        rw [Walk.andThen_of_none hfailure, walkEach_of_finished Segment.walk k hfinished,
          Walk.append_idle hfailure]
  intro c hc
  rw [hcalls] at hc
  exact segment_lt_of_mem_take hc

theorem exists_reaches_of_mem_calls {c : Call R} (hc : c ∈ (p.run work).calls) :
    ∃ s start, p.segments[c.segment]? = some s ∧ p.Reaches work c.segment start := by
  have hlt : c.segment < p.segments.length := by
    rw [calls_run] at hc
    simpa using (segment_of_mem_calls_walkEach hc).2
  have hs : p.segments[c.segment]? = some p.segments[c.segment] := List.getElem?_eq_getElem hlt
  by_contra hreaches
  refine absurd (segment_lt_of_not_reaches hs (fun hstart => hreaches ?_) c hc) (Nat.lt_irrefl _)
  obtain ⟨start, hstart⟩ := hstart
  exact ⟨_, start, hs, hstart⟩

/-- The calls of the segment `k` in a run. -/
def callsAt (p : Plan R) (work : Workspace R) (k : Nat) : List (Call R) :=
  (p.run work).calls.filter (·.segment = k)

theorem callsAt_of_reaches (hs : p.segments[k]? = some s) (h : p.Reaches work k start) :
    p.callsAt work k = (s.walk k start).calls := by
  obtain ⟨prior, later, hcalls, hprior, hlater⟩ := calls_run_of_reaches hs h
  have hfirst : prior.filter (·.segment = k) = [] :=
    List.filter_eq_nil_iff.2 fun c hc => by simp [Nat.ne_of_lt (hprior c hc)]
  have hlast : later.filter (·.segment = k) = [] :=
    List.filter_eq_nil_iff.2 fun c hc => by simp [Nat.ne_of_gt (hlater c hc)]
  have hown : (s.walk k start).calls.filter (·.segment = k) = (s.walk k start).calls :=
    List.filter_eq_self.2 fun c hc => by simp [Segment.segment_of_mem_calls_walk hc]
  rw [callsAt, hcalls, List.filter_append, List.filter_append, hfirst, hlast, hown]
  simp

theorem mem_calls_walk_of_segment (hs : p.segments[k]? = some s) (h : p.Reaches work k start)
    {c : Call R} (hc : c ∈ (p.run work).calls) (hsegment : c.segment = k) :
    c ∈ (s.walk k start).calls := by
  rw [← callsAt_of_reaches hs h]
  exact List.mem_filter.2 ⟨hc, decide_eq_true hsegment⟩

/-- A call belongs to the walk of its segment, which stands together in the run. -/
theorem exists_walk_of_mem_calls {c : Call R} (hc : c ∈ (p.run work).calls) :
    ∃ s start prior later, p.segments[c.segment]? = some s ∧
      (p.run work).calls = prior ++ (s.walk c.segment start).calls ++ later ∧
      ∀ d ∈ (p.run work).calls, d.segment = c.segment → d ∈ (s.walk c.segment start).calls := by
  obtain ⟨s, start, hs, hstart⟩ := exists_reaches_of_mem_calls hc
  obtain ⟨prior, later, hcalls, -⟩ := calls_run_of_reaches hs hstart
  exact ⟨s, start, prior, later, hs, hcalls, fun _ => mem_calls_walk_of_segment hs hstart⟩

/-! ## What follows a segment -/

/-- The calls `later` are those after the segment `k`, which is left with `start` and without
a failure: on a finished context and at the end of the plan there are none, and otherwise the
run gets to the next segment with `start`. -/
structure GoesOn (p : Plan R) (work : Workspace R) (k : Nat) (start : Workspace R)
    (later : List (Call R)) : Prop where
  segment_gt : ∀ c ∈ later, k < c.segment
  stops : start.context.finished = true ∨ p.segments.length = k + 1 →
    later = [] ∧ (p.run work).failure = none ∧ (p.run work).work = start
  reaches : start.context.finished = false → p.Reaches work (k + 1) start
  next : start.context.finished = false → k + 1 < p.segments.length →
    ∃ c others, later = c :: others ∧ c.segment = k + 1 ∧ c.entry = start

/-- A segment that fails is the last one of its run. -/
theorem run_eq_of_reaches_failure (hs : p.segments[k]? = some s) (h : p.Reaches work k start)
    {e : Failure} (hfailure : (s.walk k start).failure = some e) :
    p.run work = (walkSegments (p.segments.take k) work).append (s.walk k start) := by
  have hwalk := walkSegments_of_reaches hs h
  rw [Walk.andThen_of_failure hfailure] at hwalk
  rw [run_eq, hwalk, if_neg]
  rintro ⟨hnone, -⟩
  rw [Walk.failure_append, hfailure] at hnone
  contradiction

theorem run_of_reaches_failure (hs : p.segments[k]? = some s) (h : p.Reaches work k start)
    {e : Failure} (hfailure : (s.walk k start).failure = some e) :
    (∃ prior, (p.run work).calls = prior ++ (s.walk k start).calls) ∧
      (p.run work).failure = some e ∧ (p.run work).work = (s.walk k start).work := by
  rw [run_eq_of_reaches_failure hs h hfailure]
  exact ⟨⟨_, Walk.calls_append _ _⟩, hfailure, rfl⟩

end Plan

end StepWeave

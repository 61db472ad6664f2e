import StepWeave.Proofs.Run.Reach
import StepWeave.TextInterceptor
import StepWeave.TextStep

/-!
# The calls under an interceptor

Whenever a run reaches a range under an interceptor, the calls made there form a
`Bracket`: the interceptor is asked, the wrapped steps are called as far as they
go, a failure is handed to the interceptor, and the interceptor acts at the end
unless its mode or its recovery leaves that out.
-/

namespace StepWeave

section

variable [Types] {R : Type}

/-! ## What a bracket is -/

/-- The calls of the steps that an interceptor wraps, after its own call `opening`. -/
structure Wrapped (segment : Nat) (i : Interceptor R) (steps : List (Step R))
    (start : Workspace R) (opening : Call R) (wrapped : List (Call R)) : Prop where
  /-- Steps are called only in a mode that runs them. -/
  permitted : wrapped ≠ [] →
    ∃ mode, (i.before start.context).1 = .ok mode ∧ mode.runsSteps = true
  /-- They are called in their order, from the first on. -/
  inOrder : ∀ n c, wrapped[n]? = some c →
    ∃ s : Step R, steps[n]? = some s ∧ c = s.call segment n c.entry
  unfinished : ∀ c ∈ wrapped, c.entry.context.finished = false
  /-- Only the last one called may fail. -/
  unfailed : ∀ c ∈ wrapped.dropLast, c.failure? = none
  /-- Some are left out only after a failure or on a finished context. -/
  exhaustive : ∀ mode, (i.before start.context).1 = .ok mode → mode.runsSteps = true →
    wrapped.length < steps.length →
      (∃ c ∈ wrapped, c.failure? ≠ none) ∨
        (wrapped.getLastD opening).exit.context.finished = true

/-- Whether an interceptor that was called on `start` acts after the steps, when `throws`
are its calls about failures. -/
def Interceptor.Closes (i : Interceptor R) (start : Workspace R) (throws : List (Call R)) : Prop :=
  (∃ mode, (i.before start.context).1 = .ok mode ∧ mode.runsAfter = true) ∧
    ∀ c ∈ throws, c.callback.resumes = true

/-- The calls of a segment under an interceptor which begins with the workspace `start`. -/
structure Bracket (segment : Nat) (i : Interceptor R) (steps : List (Step R))
    (start : Workspace R) (opening : Call R) (wrapped throws closing : List (Call R)) : Prop
    extends Wrapped segment i steps start opening wrapped where
  opens : opening = i.beforeCall segment start
  throws_nil : (∀ c ∈ wrapped, c.failure? = none) → throws = []
  /-- The failure of a wrapped step is handed on once, on what the step left. -/
  throws_eq : ∀ c ∈ wrapped, ∀ failure, c.failure? = some failure →
    throws = [i.throwCall segment failure c.exit]
  closing_eq : i.Closes start throws → ∃ work, closing = [i.afterCall segment work]
  closing_nil : ¬i.Closes start throws → closing = []

/-! ## Wrapped steps -/

section

variable {segment : Nat} {steps : List (Step R)} {mode : Mode} {work : Workspace R}

theorem getElem?_calls_walkEach {index n : Nat} {c : Call R}
    (h : (walkEach (Step.walk segment) index steps work).calls[n]? = some c) :
    ∃ s : Step R, steps[n]? = some s ∧ c = s.call segment (index + n) c.entry := by
  induction steps generalizing index n work with
  | nil => simp [walkEach] at h
  | cons s rest ih =>
      obtain ⟨-, heq⟩ | ⟨-, -, heq⟩ | ⟨-, -, heq⟩ :=
        walkEach_cons (Step.walk segment) index s rest work
      · simp [heq] at h
      · rw [heq, Step.calls_walk] at h
        obtain ⟨rfl, rfl⟩ : n = 0 ∧ s.call segment index work = c := by
          simpa [List.getElem?_singleton] using h
        exact ⟨s, rfl, rfl⟩
      · rw [heq, Walk.calls_append, Step.calls_walk, List.singleton_append] at h
        cases n with
        | zero =>
            obtain rfl : s.call segment index work = c := by simpa using h
            exact ⟨s, rfl, rfl⟩
        | succ n =>
            rw [List.getElem?_cons_succ] at h
            obtain ⟨s', hs, hc⟩ := ih h
            exact ⟨s', by simpa using hs, by rwa [Nat.add_right_comm] at hc⟩

theorem length_calls_walkEach {index : Nat}
    (h : (walkEach (Step.walk segment) index steps work).failure = none) :
    (walkEach (Step.walk segment) index steps work).calls.length = steps.length ∨
      (walkEach (Step.walk segment) index steps work).work.context.finished = true := by
  induction steps generalizing index work with
  | nil => exact .inl rfl
  | cons s rest ih =>
      obtain ⟨hfinished, heq⟩ | ⟨-, ⟨failure, hfailure⟩, heq⟩ | ⟨-, -, heq⟩ :=
        walkEach_cons (Step.walk segment) index s rest work
      · rw [heq]
        exact .inr hfinished
      · rw [heq, hfailure] at h
        contradiction
      · rw [heq, Walk.failure_append] at h
        rw [heq, Walk.calls_append, Walk.work_append, Step.calls_walk]
        exact (ih h).imp (fun hlength => by simpa using hlength) id

theorem getElem?_calls_walkRange {n : Nat} {c : Call R}
    (h : (walkRange segment steps mode work).calls[n]? = some c) :
    ∃ s : Step R, steps[n]? = some s ∧ c = s.call segment n c.entry := by
  rw [walkRange] at h
  split at h
  · obtain ⟨s, hs, hc⟩ := getElem?_calls_walkEach h
    exact ⟨s, hs, by rwa [Nat.zero_add] at hc⟩
  · simp at h

theorem length_calls_walkRange (hruns : mode.runsSteps = true)
    (h : (walkRange segment steps mode work).failure = none) :
    (walkRange segment steps mode work).calls.length = steps.length ∨
      (walkRange segment steps mode work).work.context.finished = true := by
  rw [walkRange, if_pos hruns] at h ⊢
  exact length_calls_walkEach h

end

/-! ## Whole brackets -/

namespace Interceptor

variable {segment : Nat} {i : Interceptor R} {steps : List (Step R)} {start work : Workspace R}
  {mode : Mode} {cause : Failure} {throws : List (Call R)}

theorem closes_iff (hmode : (i.before start.context).1 = .ok mode) :
    i.Closes start throws ↔
      mode.runsAfter = true ∧ ∀ c ∈ throws, c.callback.resumes = true := by
  constructor
  · rintro ⟨⟨mode', hmode', hruns⟩, hthrows⟩
    rw [hmode] at hmode'
    cases hmode'
    exact ⟨hruns, hthrows⟩
  · exact fun h => ⟨⟨mode, hmode, h.1⟩, h.2⟩

theorem wrapped_walkRange (hmode : (i.before start.context).1 = .ok mode)
    (hwork : (i.beforeCall segment start).exit = work) :
    Wrapped segment i steps start (i.beforeCall segment start)
      (walkRange segment steps mode work).calls where
  permitted hne := by
    obtain ⟨c, hc⟩ := List.exists_mem_of_ne_nil _ hne
    obtain ⟨-, -, hruns, -⟩ := exists_step_of_mem_calls_walkRange hc
    exact ⟨mode, hmode, hruns⟩
  inOrder n c hc := getElem?_calls_walkRange hc
  unfinished c hc := by
    obtain ⟨-, -, -, -, hentry, -⟩ := exists_step_of_mem_calls_walkRange hc
    exact hentry
  unfailed := by
    obtain ⟨-, hnone⟩ | ⟨front, c, failure, hcalls, hfront, -⟩ :=
      Walk.endsBy_walkRange segment steps mode work
    · exact fun c hc => hnone c (List.dropLast_subset _ hc)
    · rw [hcalls, List.dropLast_concat]
      exact hfront
  exhaustive mode' hmode' hruns hlength := by
    rw [hmode] at hmode'
    cases hmode'
    have hrelay := relay_walkRange segment steps mode work
    rw [← hwork] at hrelay
    obtain ⟨hfailure, -⟩ | ⟨front, c, failure, hcalls, -, hgives, -⟩ :=
      Walk.endsBy_walkRange segment steps mode work
    · rw [← hwork] at hfailure hlength ⊢
      rw [← hrelay.finish_eq]
      exact .inr ((length_calls_walkRange hruns hfailure).resolve_left (Nat.ne_of_lt hlength))
    · refine .inl ⟨c, by simp [hcalls], ?_⟩
      rw [hgives]
      exact Option.some_ne_none failure

theorem bracket_of_error {failure : Failure} (h : (i.before start.context).1 = .error failure) :
    Bracket segment i steps start (i.beforeCall segment start) [] [] [] where
  permitted := by simp
  inOrder := by simp
  unfinished := by simp
  unfailed := by simp
  exhaustive mode hmode := by simp [h] at hmode
  opens := rfl
  throws_nil _ := rfl
  throws_eq := by simp
  closing_eq := by simp [Closes, h]
  closing_nil _ := rfl

theorem bracket_of_none (hmode : (i.before start.context).1 = .ok mode)
    (hwork : (i.beforeCall segment start).exit = work)
    (h : (walkRange segment steps mode work).failure = none) :
    Bracket segment i steps start (i.beforeCall segment start)
      (walkRange segment steps mode work).calls []
      (if mode.runsAfter then
        [i.afterCall segment (walkRange segment steps mode work).work]
      else []) where
  toWrapped := wrapped_walkRange hmode hwork
  opens := rfl
  throws_nil _ := rfl
  throws_eq c hc failure hgives := by
    have hnone := (Walk.endsBy_walkRange segment steps mode work).none_of_mem h c hc
    rw [hgives] at hnone
    contradiction
  closing_eq hcloses := ⟨_, if_pos ((closes_iff hmode).1 hcloses).1⟩
  closing_nil hcloses := if_neg fun hruns => hcloses ((closes_iff hmode).2 ⟨hruns, by simp⟩)

/-- A wrapped step fails.  It is the last one called, so the interceptor gets the
failure on what that step left. -/
theorem bracket_of_failure (hmode : (i.before start.context).1 = .ok mode)
    (hwork : (i.beforeCall segment start).exit = work)
    (h : (walkRange segment steps mode work).failure = some cause) :
    Bracket segment i steps start (i.beforeCall segment start)
      (walkRange segment steps mode work).calls
      [i.throwCall segment cause (walkRange segment steps mode work).work]
      (if mode.runsAfter = true ∧ (i.throwCall segment cause
          (walkRange segment steps mode work).work).callback.resumes = true then
        [i.afterCall segment
          (i.throwCall segment cause (walkRange segment steps mode work).work).exit]
      else []) := by
  have hrelay := relay_walkRange segment steps mode work
  obtain ⟨hnone, -⟩ | ⟨front, last, failure, hcalls, hfront, hgives, hfailure⟩ :=
    Walk.endsBy_walkRange segment steps mode work
  · rw [h] at hnone
    contradiction
  · have hcause : failure = cause := Option.some.inj (hfailure.symm.trans h)
    have hleft : (walkRange segment steps mode work).work = last.exit :=
      (hcalls ▸ hrelay).finish_eq_of_concat
    refine {
      toWrapped := wrapped_walkRange hmode hwork
      opens := rfl
      throws_nil := fun hnone => ?_
      throws_eq := fun c hc failure' hc' => ?_
      closing_eq := fun hcloses => ⟨_, if_pos ?_⟩
      closing_nil := fun hcloses => if_neg fun hruns => hcloses ?_ }
    · rw [hnone last (by simp [hcalls])] at hgives
      contradiction
    · rw [hcalls, List.mem_append, List.mem_singleton] at hc
      rcases hc with hc | rfl
      · rw [hfront c hc] at hc'
        contradiction
      · rw [hgives, Option.some.injEq] at hc'
        rw [hleft, ← hcause, hc']
    · simpa [closes_iff hmode] using hcloses
    · simpa [closes_iff hmode] using hruns

theorem bracket_walk (segment : Nat) (i : Interceptor R) (steps : List (Step R))
    (start : Workspace R) :
    ∃ opening wrapped throws closing,
      (i.walk segment steps start).calls = opening :: (wrapped ++ (throws ++ closing)) ∧
        Bracket segment i steps start opening wrapped throws closing := by
  cases hmode : (i.before start.context).1 with
  | error failure =>
      refine ⟨_, _, _, _, ?_, bracket_of_error hmode⟩
      simp [walk_error hmode, Walk.calls, Record.call?]
  | ok mode =>
      have hcalls : (i.walk segment steps start).calls = i.beforeCall segment start ::
          (i.walkMode segment steps mode (i.beforeCall segment start).exit).calls := by
        rw [walk_ok hmode, Walk.calls_logging]
        rfl
      cases h : (walkRange segment steps mode (i.beforeCall segment start).exit).failure with
      | none =>
          refine ⟨_, _, _, _, ?_, bracket_of_none hmode rfl h⟩
          rw [hcalls, walkMode_of_none h]
          split <;> simp
      | some cause =>
          refine ⟨_, _, _, _, ?_, bracket_of_failure hmode rfl h⟩
          rw [hcalls, walkMode_of_failure h, Walk.calls_append, calls_walkThrow]
          rfl

end Interceptor

/-! ## What a bracket says about its calls -/

section

variable {segment : Nat} {i : Interceptor R} {steps : List (Step R)} {start : Workspace R}
  {opening c : Call R} {wrapped throws closing : List (Call R)}

theorem Wrapped.exists_step_of_mem (h : Wrapped segment i steps start opening wrapped)
    (hc : c ∈ wrapped) : ∃ (n : Nat) (s : Step R), c = s.call segment n c.entry := by
  obtain ⟨n, hn⟩ := List.mem_iff_getElem?.1 hc
  obtain ⟨s, -, heq⟩ := h.inOrder n c hn
  exact ⟨n, s, heq⟩

theorem Bracket.throws_eq_nil_or
    (h : Bracket segment i steps start opening wrapped throws closing) :
    throws = [] ∨ ∃ front last cause, wrapped = front ++ [last] ∧
      last.failure? = some cause ∧ throws = [i.throwCall segment cause last.exit] := by
  obtain rfl | ⟨front, last, rfl⟩ := List.eq_nil_or_concat' wrapped
  · exact .inl (h.throws_nil (by simp))
  · have hfront : ∀ c ∈ front, c.failure? = none := by simpa using h.unfailed
    cases hlast : last.failure? with
    | none =>
        refine .inl (h.throws_nil fun c hc => ?_)
        rw [List.mem_append, List.mem_singleton] at hc
        exact hc.elim (hfront c) (fun hc => hc ▸ hlast)
    | some cause => exact .inr ⟨front, last, cause, rfl, hlast, h.throws_eq last (by simp) _ hlast⟩

theorem Bracket.mem_throws (h : Bracket segment i steps start opening wrapped throws closing)
    (hc : c ∈ opening :: (wrapped ++ (throws ++ closing))) {id : String} {cause : Failure}
    {answer : Except Failure Recovery} (hcallback : c.callback = .onThrow id cause answer) :
    c ∈ throws := by
  rw [List.mem_cons, List.mem_append, List.mem_append] at hc
  obtain rfl | hc | hc | hc := hc
  · rw [h.opens] at hcallback
    contradiction
  · obtain ⟨n, s, heq⟩ := h.exists_step_of_mem hc
    rw [heq] at hcallback
    contradiction
  · exact hc
  · by_cases hcloses : i.Closes start throws
    · obtain ⟨work, hclosing⟩ := h.closing_eq hcloses
      rw [hclosing, List.mem_singleton] at hc
      rw [hc] at hcallback
      contradiction
    · rw [h.closing_nil hcloses] at hc
      contradiction

end

/-- In every run, the calls made under an interceptor are one bracket that no other call
interrupts, and there are none if the run does not get to it on an unfinished context. -/
theorem Plan.calls_bracket (p : Plan R) (work : Workspace R) (k : Nat) (i : Interceptor R)
    (steps : List (Step R)) (hsegment : p.segments[k]? = some (.intercepted i steps)) :
    (∀ start, p.Reaches work k start →
      ∃ prior opening wrapped throws closing later,
        (p.run work).calls =
          prior ++ opening :: (wrapped ++ (throws ++ closing)) ++ later ∧
        (∀ c ∈ prior, c.segment < k) ∧ (∀ c ∈ later, k < c.segment) ∧
        Bracket k i steps start opening wrapped throws closing) ∧
    ((¬∃ start, p.Reaches work k start) → ∀ c ∈ (p.run work).calls, c.segment ≠ k) ∧
    Relay work (p.run work).calls (p.run work).work := by
  refine ⟨fun start hreaches => ?_, fun hreaches c hc => ?_, p.relay_run work⟩
  · obtain ⟨prior, later, hcalls, hprior, hlater⟩ := calls_run_of_reaches hsegment hreaches
    obtain ⟨opening, wrapped, throws, closing, hwalk, hbracket⟩ := i.bracket_walk k steps start
    rw [Segment.walk, hwalk] at hcalls
    exact ⟨prior, opening, wrapped, throws, closing, later, hcalls, hprior, hlater, hbracket⟩
  · exact Nat.ne_of_lt (segment_lt_of_not_reaches hsegment hreaches c hc)

end

def Plan.guarded : Plan String where
  segments :=
    [.plain (TextStep.toStep ⟨"open", .append "opened"⟩),
      .intercepted
        (TextInterceptor.toInterceptor ⟨"guard", none, none, .recover .resume none "error"⟩)
        [TextStep.toStep ⟨"read", .fail "no input" none "user"⟩,
          TextStep.toStep ⟨"trim", .append "trimmed"⟩]]

theorem Plan.calls_bracket_guarded :
    ∃ i steps, guarded.segments[1]? = some (.intercepted i steps) ∧
      guarded.Reaches ⟨.empty, ""⟩ 1 ⟨.empty, "opened"⟩ ∧
      ∃ prior opening wrapped throws closing later,
        (guarded.run ⟨.empty, ""⟩).calls =
          prior ++ opening :: (wrapped ++ (throws ++ closing)) ++ later ∧
        (∀ c ∈ prior, c.segment < 1) ∧ (∀ c ∈ later, 1 < c.segment) ∧
        Bracket 1 i steps ⟨.empty, "opened"⟩ opening wrapped throws closing := by
  have hreaches : guarded.Reaches ⟨.empty, ""⟩ 1 ⟨.empty, "opened"⟩ := ⟨rfl, rfl, rfl⟩
  have hsegment : guarded.segments[1]? = some (.intercepted _ _) := rfl
  exact ⟨_, _, hsegment, hreaches, (guarded.calls_bracket ⟨.empty, ""⟩ 1 _ _ hsegment).1 _ hreaches⟩

end StepWeave

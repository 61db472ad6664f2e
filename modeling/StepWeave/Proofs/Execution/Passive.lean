import StepWeave.Proofs.Execution.Planned
import StepWeave.Proofs.Run.Passive
import StepWeave.TextStep

/-!
# Executions without passive interceptors

A pipeline that loses its passive interceptors runs as before.  Nothing is missing but the
events that report those interceptors as entered (`Plan.OmitsEntries`).
-/

namespace StepWeave

section

variable [Types] {R : Type}

open Classical in
/-- The variant without those of its interceptors, and of its delegate's, that are passive. -/
noncomputable def Variant.withoutPassive (v : Variant R) : Variant R :=
  v.selecting fun i => !decide i.Passive

/-! ## What is missing -/

namespace Plan

/-- A call that reports a passive interceptor of the plan as entered. -/
def EntersPassive (p : Plan R) (c : Call R) : Prop :=
  ∃ i steps, p.segments[c.segment]? = some (.intercepted i steps) ∧ i.Passive ∧
    c.events = [.interceptorEntered i.id .all]

open Classical in
/-- `thin` are the `events` of a run of the plan on `work`, and maybe others around them, but
without those that report a passive interceptor as entered. -/
def OmitsEntries (p : Plan R) (work : Workspace R) (events thin : List Event) : Prop :=
  ∃ front back, events = front ++ ((p.run work).calls.flatMap Call.events ++ back) ∧
    thin = front ++ (((p.run work).calls.filter (¬p.EntersPassive ·)).flatMap Call.events ++ back)

theorem OmitsEntries.around {p : Plan R} {work : Workspace R} {events thin : List Event}
    (h : p.OmitsEntries work events thin) (first last : Event) :
    p.OmitsEntries work (first :: events ++ [last]) (first :: thin ++ [last]) := by
  obtain ⟨front, back, rfl, rfl⟩ := h
  exact ⟨first :: front, back ++ [last], by simp, by simp⟩

end Plan

theorem Call.flatMap_events_filter_congr {keep keep' : Call R → Bool} {calls : List (Call R)}
    (h : ∀ c ∈ calls, keep c ≠ keep' c → c.events = []) :
    (calls.filter keep).flatMap events = (calls.filter keep').flatMap events := by
  induction calls with
  | nil => rfl
  | cons c rest ih =>
      have hrest := ih fun d hd => h d (List.mem_cons_of_mem c hd)
      have hc := h c List.mem_cons_self
      cases hkeep : keep c <;> cases hkeep' : keep' c
      · simp [hkeep, hkeep', hrest]
      · simp [hkeep, hkeep', hrest, hc (by simp [hkeep, hkeep'])]
      · simp [hkeep, hkeep', hrest, hc (by simp [hkeep, hkeep'])]
      · simp [hkeep, hkeep', hrest]

section

open Classical

/-- Of the calls of a passive interceptor only the one by which it is entered is reported. -/
theorem Segment.Makes.events_of_hides {s : Segment R} {index : Nat} {c : Call R}
    (h : s.Makes index c) (hhides : s.hides (fun i => !decide i.Passive) c.callback = true) :
    c.events = [] ∨ ∃ i steps, s = .intercepted i steps ∧ i.Passive ∧
      c.events = [.interceptorEntered i.id .all] := by
  cases h with
  | plain => contradiction
  | wrapped => contradiction
  | @before i steps work =>
      have hpassive : i.Passive := by simpa [hides, Interceptor.beforeCall] using hhides
      refine .inr ⟨i, steps, rfl, hpassive, ?_⟩
      rw [Interceptor.beforeCall, hpassive.before]
      rfl
  | @onThrow i steps failure work =>
      have hpassive : i.Passive := by simpa [hides, Interceptor.throwCall] using hhides
      rw [Interceptor.throwCall, hpassive.onThrow]
      exact .inl rfl
  | after => exact .inl rfl

theorem Plan.hides_of_entersPassive {p : Plan R} {c : Call R} (h : p.EntersPassive c) :
    p.hides (fun i => !decide i.Passive) c = true := by
  obtain ⟨i, steps, hsegment, hpassive, hevents⟩ := h
  rw [hides, hsegment]
  cases hcallback : c.callback with
  | step position id answer =>
      -- The call of a step is reported as that of a step.
      rw [Call.events, Call.announcement, hcallback] at hevents
      simp [Callback.announcement?] at hevents
  | before | onThrow | after => simp [Segment.hides, hpassive]

theorem Plan.omitsEntries_run (p : Plan R) (work : Workspace R) :
    p.OmitsEntries work (p.run work).events
      ((p.selecting fun i => !decide i.Passive).run work).events := by
  refine ⟨[], p.stopEvents work, p.events_run_eq work, ?_⟩
  rw [p.events_selecting (by simp) work, List.nil_append]
  congr 1
  apply Call.flatMap_events_filter_congr
  intro c hc hne
  obtain ⟨s, hs, hmakes⟩ := makes_of_mem_calls hc
  have hhides : p.hides (fun i => !decide i.Passive) c = true := by
    by_contra hshown
    exact hne (by simp [hshown, mt hides_of_entersPassive hshown])
  have hsegment := hhides
  rw [hides, hs] at hsegment
  obtain hevents | ⟨i, steps, rfl, hpassive, hentered⟩ :=
    hmakes.events_of_hides (by simpa using hsegment)
  · exact hevents
  · have henters : p.EntersPassive c := ⟨i, steps, hs, hpassive, hentered⟩
    exact absurd (by simp [hhides, henters]) hne

end

/-! ## Executions -/

/-- A run that agrees with another one but for what it reports makes up an execution that
does. -/
theorem Execution.agrees_of_run {v v' : Variant R} {p q : Plan R} (hp : Plan.build v = .ok p)
    (hq : Plan.build v' = .ok q) {work : Workspace R} (htotal : q.total = p.total)
    (hfailure : (q.run work).failure = (p.run work).failure)
    (hwork : (q.run work).work = (p.run work).work)
    (hcompleted : (q.run work).completed = (p.run work).completed)
    (hevents : p.OmitsEntries work (p.run work).events (q.run work).events)
    (id : ExecutionId) (clock : Clock) (name : String) (layer : Option String) :
    (run id clock (.new name layer) v' work).result =
        (run id clock (.new name layer) v work).result ∧
      (run id clock (.new name layer) v' work).work = (run id clock (.new name layer) v work).work ∧
      p.OmitsEntries work (run id clock (.new name layer) v work).events
        (run id clock (.new name layer) v' work).events := by
  rw [run_eq_clocked hp, run_eq_clocked hq, htotal, hfailure, hwork, hcompleted]
  refine ⟨rfl, rfl, ?_⟩
  simpa [events, Walk.events, Record.event?] using hevents.around
    (.pipelineStarted id name layer p.total)
    (.pipelineCompleted id (.ofFailure (p.run work).failure) (p.run work).completed
      (some (clock.start.millisBetween clock.stop)))

/-- A pipeline that has a plan also has one without its passive interceptors.  It has the
same steps, and every execution goes the same way and reports the same but the entries of
those interceptors. -/
theorem Variant.passive_transparent {v : Variant R} {p : Plan R}
    (h : Plan.build v.flatten = .ok p) :
    ∃ q, Plan.build v.withoutPassive.flatten = .ok q ∧ q.stepIds = p.stepIds ∧
      ∀ work, (q.run work).failure = (p.run work).failure ∧
        (q.run work).work = (p.run work).work ∧
        (q.run work).completed = (p.run work).completed ∧
        (q.run work).pause = (p.run work).pause ∧
        p.OmitsEntries work (p.run work).events (q.run work).events ∧
        ∀ id clock name layer,
          (Execution.run id clock (.new name layer) v.withoutPassive.flatten work).result =
            (Execution.run id clock (.new name layer) v.flatten work).result ∧
          (Execution.run id clock (.new name layer) v.withoutPassive.flatten work).work =
            (Execution.run id clock (.new name layer) v.flatten work).work ∧
          p.OmitsEntries work (Execution.run id clock (.new name layer) v.flatten work).events
            (Execution.run id clock (.new name layer) v.withoutPassive.flatten work).events := by
  classical
  have hbuild := Plan.build_selecting h fun i => !decide i.Passive
  rw [← flatten_selecting] at hbuild
  have hsteps := p.steps_selecting fun i => !decide i.Passive
  refine ⟨_, hbuild, by rw [Plan.stepIds, hsteps, Plan.stepIds], fun work => ?_⟩
  have hkeep (i : Interceptor R) (hi : (!decide i.Passive) = false) : i.Passive := by
    simpa using hi
  have hrun := p.thins_run hkeep work
  have hevents := p.omitsEntries_run work
  exact ⟨hrun.failure, hrun.work, hrun.completed, p.pause_selecting hkeep work, hevents,
    Execution.agrees_of_run h hbuild rfl hrun.failure hrun.work hrun.completed hevents⟩

end

/-- A pipeline that is watched up to its first step and guarded in its second one. -/
def Variant.watched : Variant String where
  name := "watched"
  steps := [TextStep.toStep ⟨"a", .append "a"⟩, TextStep.toStep ⟨"b", .append "b"⟩]
  interceptors :=
    [{ id := "guard", start := some "b", before := fun c => (.ok .neither, c) },
      { id := "watch", stop := some "a" }]

def Variant.watchedPlan : Plan String where
  segments :=
    [.intercepted { id := "watch", stop := some "a" } [TextStep.toStep ⟨"a", .append "a"⟩],
      .intercepted { id := "guard", start := some "b", before := fun c => (.ok .neither, c) }
        [TextStep.toStep ⟨"b", .append "b"⟩]]

theorem Variant.build_watched : Plan.build watched.flatten = .ok watchedPlan := by
  simp [Plan.build, Variant.flatten, watched, watchedPlan, Variant.weave, Keyed.isEmpty,
    Keyed.empty, Plan.placeAll, Interceptor.span, List.findIdx?_cons,
    TextStep.toStep, Plan.sortByStart, List.mergeSort, Plan.overlap?, Plan.cut, Span.slice,
    Segment.steps]

theorem Variant.passive_transparent_watched :
    Plan.build watched.flatten = .ok watchedPlan ∧
    (∃ i steps, watchedPlan.segments[0]? = some (.intercepted i steps) ∧ i.Passive) ∧
    ∃ q, Plan.build watched.withoutPassive.flatten = .ok q ∧ q.stepIds = ["a", "b"] ∧
      ∀ work, (q.run work).work = (watchedPlan.run work).work ∧
        watchedPlan.OmitsEntries work (watchedPlan.run work).events (q.run work).events := by
  obtain ⟨q, hq, hsteps, hruns⟩ := passive_transparent build_watched
  have hpassive := Interceptor.passive_mk (R := String) "watch" none (some "a")
  refine ⟨build_watched, ⟨_, _, rfl, hpassive⟩, q, hq, hsteps, fun work => ?_⟩
  obtain ⟨-, hwork, -, -, hevents, -⟩ := hruns work
  exact ⟨hwork, hevents⟩

end StepWeave

import StepWeave.Proofs.Registry.Room
import StepWeave.Proofs.Registry.Runnable
import StepWeave.ValueType

/-!
# Executing what is registered

Executing a name comes to the same as executing the variant that is found under it
(`Registry.execute_resolved`), and executing a variant to the same as registering it and
executing its name (`Registry.execute_register`).  What tells two executions of one variant
apart is their identity and how long they take.
-/

namespace StepWeave

/-- The event without what tells executions apart: their identity and their duration. -/
def Event.unstamped : Event → Event
  | pipelineStarted _ pipeline layer total => pipelineStarted default pipeline layer total
  | pipelineCompleted _ status completed duration =>
    pipelineCompleted default status completed (duration.map fun _ => 0)
  | event => event

section

variable [Types]

namespace Execution

variable {R : Type}

/-- `e'` makes the same calls as `e` and ends as `e` does. -/
structure SameOutcome (e e' : Execution R) : Prop where
  calls : e'.calls = e.calls
  result : e'.result = e.result
  work : e'.work = e.work

/-- `e'` also reports what `e` does, but for identities and durations. -/
structure Alike (e e' : Execution R) : Prop extends SameOutcome e e' where
  events : e'.events.map Event.unstamped = e.events.map Event.unstamped

section

variable (v : Variant R) (id id' : ExecutionId) (clock clock' : Clock)

theorem sameOutcome_run (name name' : String) (layer layer' : Option String)
    (work : Workspace R) :
    SameOutcome (run id clock (.new name layer) v work)
      (run id' clock' (.new name' layer') v work) := by
  cases hplan : Plan.build v with
  | error failure =>
      simp only [run, hplan]
      exact ⟨rfl, rfl, rfl⟩
  | ok plan =>
      exact {
        calls := by rw [calls_run hplan, calls_run hplan]
        result := by rw [result, result, failure_run hplan, failure_run hplan]
        work := by rw [work_run hplan, work_run hplan] }

/-- What an execution with a plan reports after its start does not depend on when and for
which layer it is started, but for identities and durations. -/
theorem events_run_unstamped {v : Variant R} {plan : Plan R} (hplan : Plan.build v = .ok plan)
    (name : String) (layer : Option String) (work : Workspace R) :
    ∃ later, (run id clock (.new name layer) v work).events =
        .pipelineStarted id name layer plan.total :: later ∧
      later.map Event.unstamped = (plan.run work).events.map Event.unstamped ++
        [.pipelineCompleted default (.ofFailure (plan.run work).failure)
          (plan.run work).completed (some 0)] := by
  obtain ⟨duration, hevents⟩ := events_run hplan id clock name layer work
  rw [List.cons_append] at hevents
  refine ⟨_, hevents, ?_⟩
  rw [List.map_append]
  rfl

/-- Executions of one variant differ in identity and duration alone. -/
theorem alike_run (name : String) (layer : Option String) (work : Workspace R) :
    Alike (run id clock (.new name layer) v work) (run id' clock' (.new name layer) v work) where
  toSameOutcome := sameOutcome_run v id id' clock clock' name name layer layer work
  events := by
    cases hplan : Plan.build v with
    | error failure =>
        simp only [run, hplan]
        rfl
    | ok plan =>
        obtain ⟨later, hevents, hlater⟩ := events_run_unstamped id clock hplan name layer work
        obtain ⟨later', hevents', hlater'⟩ := events_run_unstamped id' clock' hplan name layer work
        rw [hevents, hevents', List.map_cons, List.map_cons, hlater, hlater']
        rfl

end

end Execution

namespace Registry

/-- A name is executed as the variant that is found under it is, but for the layer that is
reported: the one asked for, which is not that of the variant where a default stands in.
Where none is found, nothing happens but that this is reported. -/
theorem execute_resolved (history : List Registration) (type : TypeTag) (name : String)
    (layer : Option String) (id : ExecutionId) (clock : Clock) (work : Workspace type.Carrier) :
    match (ofHistory history).resolve type name layer with
    | .error failure =>
      (ofHistory history).execute type name layer id clock work =
        { failure := some failure, work,
          log := [.event (.pipelineCompleted id .failed 0 none)] }
    | .ok v =>
      (v.layer ≠ layer ↔ layer ≠ none ∧ v.layer = none) ∧
      ∀ id' clock',
        Execution.SameOutcome ((ofHistory history).execute type name layer id clock work)
          (v.execute id' clock' work) ∧
        ∃ total later later',
          ((ofHistory history).execute type name layer id clock work).events =
            .pipelineStarted id name layer total :: later ∧
          (v.execute id' clock' work).events = .pipelineStarted id' name v.layer total :: later' ∧
          later'.map Event.unstamped = later.map Event.unstamped := by
  cases hresolve : (ofHistory history).resolve type name layer with
  | error failure =>
      have hof := Execution.Of.pipeline (ofHistory history) type name layer id clock work
      rw [hresolve] at hof
      exact hof.eq_of_error rfl
  | ok v =>
      have hconsistent := consistent_ofHistory history
      obtain ⟨held, hheld, hv, hlayer⟩ := resolve_ok hresolve
      obtain ⟨l, -, hl⟩ := hconsistent.exists_listing hheld hv
      obtain ⟨plan, hplan, -⟩ := hl.steps
      have hname : v.name = name := hconsistent.name_eq hheld hv
      constructor
      · constructor
        · intro hne
          have hdefault : v.layer = none := hlayer.resolve_left hne
          exact ⟨fun hnone => hne (hdefault.trans hnone.symm), hdefault⟩
        · rintro ⟨hasked, hdefault⟩ heq
          exact hasked (heq.symm.trans hdefault)
      · intro id' clock'
        have hexecute : (ofHistory history).execute type name layer id clock work =
            Execution.run id clock (.new name layer) v work := by
          rw [execute, hresolve]
        -- What is found is flat already, so it is not changed by being flattened again.
        have hgiven : v.execute id' clock' work =
            Execution.run id' clock' (.new name v.layer) v work := by
          rw [Variant.execute, Variant.flatten_of_none hl.delegate, hname]
        rw [hexecute, hgiven]
        obtain ⟨later, hevents, hlater⟩ :=
          Execution.events_run_unstamped id clock hplan name layer work
        obtain ⟨later', hevents', hlater'⟩ :=
          Execution.events_run_unstamped id' clock' hplan name v.layer work
        exact ⟨Execution.sameOutcome_run v id id' clock clock' name name layer v.layer work,
          plan.total, later, later', hevents, hevents', hlater'.trans hlater.symm⟩

/-- A variant of an unbound name with distinct step ids can be registered just when its
execution gets to its start, and is refused with the failure of its execution otherwise.
Once registered it is executed under its name and layer as it is executed itself. -/
theorem execute_register {type : TypeTag} {v : Variant type.Carrier} {r : Registry}
    (hids : v.flatten.stepIds.Nodup) (hname : r.contains v.name = false) :
    (∀ id clock work, (register type v r).1 = .ok () ↔
      ∃ total, .pipelineStarted id v.name v.layer total ∈ (v.execute id clock work).events) ∧
    (∀ failure, (register type v r).1 = .error failure →
      (∃ defect, failure = .invalidPipeline v.name v.layer defect) ∧
      ∀ id clock work, (v.execute id clock work).result = .error failure) ∧
    ((register type v r).1 = .ok () → ∀ id id' clock clock' work,
      Execution.Alike (v.execute id clock work)
        ((register type v r).2.execute type v.name v.layer id' clock' work)) := by
  have hunbound : r.entries.find? v.name = none := by
    simpa [contains, Keyed.contains] using hname
  cases hplan : Plan.build v.flatten with
  | error failure =>
      have hregister : register type v r = (.error failure, r) :=
        register_of_build_error hids hplan
      have hexecute (id : ExecutionId) (clock : Clock) (work : Workspace type.Carrier) :=
        (Execution.Of.variant v id clock work).eq_of_error hplan
      obtain ⟨defect, rfl⟩ := Plan.invalid_of_build hplan
      rw [v.invalid_flatten] at hregister hexecute
      rw [hregister]
      refine ⟨fun id clock work => ?_, fun failure hfailure => ?_, fun hok => ?_⟩
      · rw [hexecute]
        simp [Execution.events, Record.event?]
      · cases hfailure
        refine ⟨⟨defect, rfl⟩, fun id clock work => ?_⟩
        rw [hexecute]
        rfl
      · cases hok
  | ok plan =>
      obtain ⟨held, -, -, hregister⟩ :=
        register_of_room hids hplan (hasRoom_of_unbound hunbound)
      have hok : (register type v r).1 = .ok () := by rw [hregister]
      refine ⟨fun id clock work => ?_, fun failure hfailure => ?_,
        fun _ id id' clock clock' work => ?_⟩
      · obtain ⟨later, hevents, -⟩ :=
          Execution.events_run_unstamped id clock hplan v.name v.layer work
        rw [Variant.execute, hevents]
        simp [hok]
      · rw [hok] at hfailure
        cases hfailure
      · rw [execute, resolve_register hok]
        exact Execution.alike_run v.flatten id id' clock clock' v.name v.layer work

end Registry

end

namespace Registry

/-- A greeting that is guided, with a step of its own that its delegate makes idle. -/
def guided : Variant String where
  name := "guided"
  layer := some "shop"
  delegate := some greeting
  steps := [TextStep.toStep ⟨"idle", .hook⟩]
  interceptors := [{ id := "guide", stop := some "hello" }]

theorem build_guided : Plan.build guided.flatten = .ok
    { segments := [.intercepted { id := "guide", stop := some "hello" } greeting.steps] } := by
  have hflat : guided.flatten = {
      name := "guided"
      layer := some "shop"
      steps := greeting.steps
      interceptors := [{ id := "guide", stop := some "hello" }] } := rfl
  simp [hflat, Plan.build, greeting, Variant.weave, Keyed.isEmpty, Keyed.empty, Plan.placeAll,
    Interceptor.span, List.findIdx?_cons, TextStep.toStep, Plan.sortByStart, Plan.overlap?,
    Plan.cut, Span.slice, Segment.steps]

theorem execute_register_guided :
    guided.flatten.stepIds.Nodup ∧
    (ofHistory [⟨.string, greeting⟩]).contains guided.name = false ∧
    (register ValueType.string guided (ofHistory [⟨.string, greeting⟩])).1 = .ok () ∧
    ∀ id id' clock clock' work, Execution.Alike (guided.execute id clock work)
      ((register ValueType.string guided (ofHistory [⟨.string, greeting⟩])).2.execute .string
        "guided" (some "shop") id' clock' work) := by
  have hids : guided.flatten.stepIds.Nodup := by decide
  have hname : (ofHistory [⟨.string, greeting⟩]).contains guided.name = false := by
    obtain ⟨listing, hhistory⟩ := ofHistory_greeting
    have hne : greeting.name ≠ guided.name := by decide
    rw [hhistory, contains, Keyed.contains, add, Keyed.find?_insert, if_neg hne]
    rfl
  obtain ⟨hstarts, -, hagrees⟩ := @execute_register _ ValueType.string guided _ hids hname
  have hok : (register ValueType.string guided (ofHistory [⟨.string, greeting⟩])).1 = .ok () := by
    obtain ⟨later, hevents, -⟩ := Execution.events_run_unstamped default default build_guided
      guided.name guided.layer ⟨.empty, ""⟩
    refine (hstarts default default ⟨.empty, ""⟩).2 ⟨1, ?_⟩
    rw [Variant.execute, hevents]
    exact List.mem_cons_self
  exact ⟨hids, hname, hok, hagrees hok⟩

end Registry

end StepWeave

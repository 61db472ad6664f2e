import StepWeave.Proofs.Text.Rules
import StepWeave.Proofs.Toolbox

/-!
# What a toolbox puts into its catalog

Under an id the catalog of a toolbox has the step or interceptor that its last definition with
that id stands for.  In a toolbox that passes its check every definition is the only one with its
id, so each of them is found (`Toolbox.catalog_exact`).
-/

namespace StepWeave

namespace Toolbox

variable {t : Toolbox} {id : String}

theorem step?_catalog_eq_some_iff {step : Step String} :
    t.catalog.step? id = some step ↔ ∃ s, LastWith TextStep.id id t.steps s ∧ s.Instance step := by
  simp only [step?_catalog, Option.map_eq_some_iff, find?_reverse_eq_some_iff_lastWith,
    TextStep.instance_iff]

theorem interceptor?_catalog_eq_some_iff {j : Interceptor String} :
    t.catalog.interceptor? id = some j ↔
      ∃ i, LastWith TextInterceptor.id id t.interceptors i ∧ i.Instance j := by
  simp only [interceptor?_catalog, Option.map_eq_some_iff, find?_reverse_eq_some_iff_lastWith,
    TextInterceptor.instance_iff]

theorem step?_catalog_eq_none_iff :
    t.catalog.step? id = none ↔ ∀ s ∈ t.steps, s.id ≠ id := by
  simp [step?_catalog]

theorem interceptor?_catalog_eq_none_iff :
    t.catalog.interceptor? id = none ↔ ∀ i ∈ t.interceptors, i.id ≠ id := by
  simp [interceptor?_catalog]

theorem lacksMessage_eq_false_iff {i : TextInterceptor} :
    lacksMessage i = false ↔
      ∀ message errorKey, i.kind = .recover .translate message errorKey → message ≠ none := by
  obtain ⟨id, start, stop, kind⟩ := i
  cases kind with
  | record beforeKey afterKey => simp [lacksMessage]
  | skip mode text => simp [lacksMessage]
  | recover onError message errorKey =>
      cases onError <;> cases message <;> simp [lacksMessage]

/-- The check accepts just the toolboxes in which the steps have ids of their own, the
interceptors have ids of their own, and none of these is to translate failures without a
message.  Whatever the toolbox, its catalog has under an id what the last definition with that
id stands for, and nothing if there is none.  In a toolbox that the check accepts each
definition is alone with its id, and what it stands for is found under it. -/
theorem catalog_exact (t : Toolbox) :
    (t.check = .ok () ↔
      (t.steps.map (·.id)).Nodup ∧ (t.interceptors.map (·.id)).Nodup ∧
        ∀ i ∈ t.interceptors, ∀ message errorKey,
          i.kind = .recover .translate message errorKey → message ≠ none) ∧
    (∀ id, (∀ step, t.catalog.step? id = some step ↔
        ∃ s, LastWith TextStep.id id t.steps s ∧ s.Instance step) ∧
      (t.catalog.step? id = none ↔ ∀ s ∈ t.steps, s.id ≠ id)) ∧
    (∀ id, (∀ j, t.catalog.interceptor? id = some j ↔
        ∃ i, LastWith TextInterceptor.id id t.interceptors i ∧ i.Instance j) ∧
      (t.catalog.interceptor? id = none ↔ ∀ i ∈ t.interceptors, i.id ≠ id)) ∧
    (t.check = .ok () →
      (∀ s ∈ t.steps, SoleIn TextStep.id t.steps s ∧
        ∃ step, t.catalog.step? s.id = some step ∧ s.Instance step) ∧
      ∀ i ∈ t.interceptors, SoleIn TextInterceptor.id t.interceptors i ∧
        ∃ j, t.catalog.interceptor? i.id = some j ∧ i.Instance j) := by
  refine ⟨?_, fun id => ⟨fun step => step?_catalog_eq_some_iff, step?_catalog_eq_none_iff⟩,
    fun id => ⟨fun j => interceptor?_catalog_eq_some_iff, interceptor?_catalog_eq_none_iff⟩,
    fun hcheck => ?_⟩
  · rw [check_eq_ok_iff]
    simp only [← lacksMessage_eq_false_iff]
    exact ⟨fun h => ⟨h.steps, h.interceptors, h.messages⟩,
      fun ⟨hsteps, hinterceptors, hmessages⟩ => ⟨hsteps, hinterceptors, hmessages⟩⟩
  · have hsound := check_eq_ok_iff.1 hcheck
    constructor
    · intro s hs
      have hsole := soleIn_of_nodup hsound.steps hs
      exact ⟨hsole, s.toStep,
        step?_catalog_eq_some_iff.2 ⟨s, hsole.lastWith, s.instance_toStep⟩, s.instance_toStep⟩
    · intro i hi
      have hsole := soleIn_of_nodup hsound.interceptors hi
      exact ⟨hsole, i.toInterceptor,
        interceptor?_catalog_eq_some_iff.2 ⟨i, hsole.lastWith, i.instance_toInterceptor⟩,
        i.instance_toInterceptor⟩

/-- A toolbox with a step that seeds the response and an interceptor that translates. -/
def seeding : Toolbox where
  steps := [⟨"seed", .seed "start" "!"⟩, ⟨"open", .append "o"⟩]
  interceptors := [⟨"guard", some "seed", none, .recover .translate (some "no start") "error"⟩]

theorem catalog_exact_seeding :
    seeding.check = .ok () ∧ ∃ step j,
      seeding.catalog.step? "seed" = some step ∧
      step.act ⟨Context.empty.putText "start" "a", "x"⟩ =
        (.ok (), ⟨Context.empty.putText "start" "a", "a" ++ "!"⟩) ∧
      seeding.catalog.interceptor? "guard" = some j ∧ j.start = some "seed" ∧
      j.onThrow (.missingValue "start") .empty = (.error (.stepFailed "guard" "no start"),
        Context.empty.putText "error" (Failure.missingValue "start").message) := by
  have hcheck : seeding.check = .ok () := rfl
  obtain ⟨-, -, -, hfound⟩ := catalog_exact seeding
  obtain ⟨hsteps, hinterceptors⟩ := hfound hcheck
  obtain ⟨-, step, hstep, hinstance⟩ := hsteps ⟨"seed", .seed "start" "!"⟩ (by simp [seeding])
  obtain ⟨-, j, hj, hjinstance⟩ := hinterceptors
    ⟨"guard", some "seed", none, .recover .translate (some "no start") "error"⟩ (by simp [seeding])
  have hget : (Context.empty.putText "start" "a").getText "start" = .ok "a" := rfl
  exact ⟨hcheck, step, j, hstep, (hinstance.act_iff _ _ _).2 (.seed hget), hj,
    hjinstance.start_eq, (hjinstance.onThrow_iff _ _ _ _).2 .translate⟩

end Toolbox

end StepWeave

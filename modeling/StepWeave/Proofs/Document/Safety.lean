import StepWeave.Proofs.Document
import StepWeave.Proofs.Plan.Contents
import StepWeave.Proofs.Registry.Runnable
import StepWeave.Proofs.Run.Text

/-!
# Executing what a document registers

The registry of a document finds a variant of text steps and interceptors, with a plan, just
when the document has a blueprint for what is asked (`Document.resolve_cases`).  So on a
context of texts an execution fails only for what its steps do (`Document.execute_safe`).
-/

namespace StepWeave

/-! ## Where the steps of a document's variants come from -/

/-- The steps and interceptors of the variant stand in the catalog. -/
structure Variant.DrawnFrom {R : Type} (catalog : Catalog R) (v : Variant R) : Prop where
  steps : ∀ s ∈ v.steps, ∃ id, catalog.step? id = some s
  extensions : ∀ s ∈ v.extensions.values, ∃ id, catalog.step? id = some s
  interceptors : ∀ i ∈ v.interceptors, ∃ id, catalog.interceptor? id = some i

section

variable {R : Type} {catalog : Catalog R} {all : List Blueprint} {b : Blueprint} {v d : Variant R}

theorem Blueprint.Resolves.drawnFrom (h : b.Resolves catalog v) : v.DrawnFrom catalog where
  steps := exists_of_map_eq_map_some h.steps
  extensions := by
    have hvalues := congrArg Keyed.values h.extensions
    rw [Keyed.values_map, Keyed.values_map] at hvalues
    exact exists_of_map_eq_map_some hvalues
  interceptors := exists_of_map_eq_map_some h.interceptors

theorem Variant.DrawnFrom.flatten (hv : v.DrawnFrom catalog)
    (hd : ∀ d, v.delegate = some d → d.DrawnFrom catalog) : v.flatten.DrawnFrom catalog := by
  unfold Variant.flatten
  split
  · exact hv
  next d hdelegate =>
    have hdrawn := hd d hdelegate
    exact {
      steps := hdrawn.steps
      extensions := fun s hs =>
        (Keyed.mem_values_overlay hs).elim (hdrawn.extensions s) (hv.extensions s)
      interceptors := fun i hi =>
        (List.mem_append.1 hi).elim (hdrawn.interceptors i) (hv.interceptors i) }

theorem Blueprint.Yields.drawnFrom (h : b.Yields catalog all v) :
    v.flatten.DrawnFrom catalog := by
  have hbase := h.base.drawnFrom
  refine Variant.DrawnFrom.flatten ⟨hbase.steps, hbase.extensions, hbase.interceptors⟩ ?_
  intro d hd
  cases hdelegate : b.delegate with
  | none =>
      rw [h.delegate_eq_none hdelegate] at hd
      contradiction
  | some target =>
      obtain ⟨t, d', -, ht, hd'⟩ := h.exists_delegate hdelegate
      obtain rfl : d = d' := Option.some.inj (hd.symm.trans hd')
      exact ht.drawnFrom

end

/-! ## Plans of declared steps -/

/-- The steps of the segment and its interceptor are declared in the toolbox. -/
def TextSegment.DrawnFrom (t : Toolbox) : TextSegment → Prop
  | plain s => s ∈ t.steps
  | intercepted i steps => i ∈ t.interceptors ∧ ∀ s ∈ steps, s ∈ t.steps

theorem TextSegment.DrawnFrom.mem_steps {t : Toolbox} {part : TextSegment}
    (h : part.DrawnFrom t) {s : TextStep} (hs : s ∈ part.steps) : s ∈ t.steps := by
  cases part with
  | plain s' => rwa [List.mem_singleton.1 hs]
  | intercepted i steps => exact h.2 s hs

section

variable {t : Toolbox} {v : Variant String} {p : Plan String}

theorem Toolbox.exists_of_step? {s : Step String} (h : ∃ id, t.catalog.step? id = some s) :
    ∃ s' ∈ t.steps, s'.toStep = s := by
  obtain ⟨id, hid⟩ := h
  rw [step?_catalog, Option.map_eq_some_iff] at hid
  obtain ⟨s', hfind, hs⟩ := hid
  exact ⟨s', List.mem_reverse.1 (List.mem_of_find?_eq_some hfind), hs⟩

theorem Toolbox.exists_of_interceptor? {i : Interceptor String}
    (h : ∃ id, t.catalog.interceptor? id = some i) :
    ∃ i' ∈ t.interceptors, i'.toInterceptor = i := by
  obtain ⟨id, hid⟩ := h
  rw [interceptor?_catalog, Option.map_eq_some_iff] at hid
  obtain ⟨i', hfind, hi⟩ := hid
  exact ⟨i', List.mem_reverse.1 (List.mem_of_find?_eq_some hfind), hi⟩

/-- A plan of declared steps and interceptors is one of text segments. -/
theorem Plan.exists_ofText (h : build v = .ok p) (hv : v.DrawnFrom t.catalog) :
    ∃ parts, (∀ part ∈ parts, part.DrawnFrom t) ∧ ofText parts = p := by
  have hstep (s : Segment String) (hs : s ∈ p.segments) :
      ∀ step ∈ s.steps, ∃ s' ∈ t.steps, s'.toStep = step := by
    intro step hstep
    exact Toolbox.exists_of_step?
      (((mem_of_build h hs).1 step hstep).elim (hv.steps step) (hv.extensions step))
  have hsegment : ∀ s ∈ p.segments, ∃ part : TextSegment, part.DrawnFrom t ∧
      part.toSegment = s := by
    intro s hs
    cases s with
    | plain step =>
        obtain ⟨s', hs', rfl⟩ := hstep _ hs step (List.mem_singleton_self step)
        exact ⟨.plain s', hs', rfl⟩
    | intercepted i steps =>
        obtain ⟨i', hi', rfl⟩ := Toolbox.exists_of_interceptor?
          (hv.interceptors i ((mem_of_build h hs).2 i steps rfl))
        obtain ⟨steps', hsteps', rfl⟩ := exists_map_eq (hstep _ hs)
        exact ⟨.intercepted i' steps', ⟨hi', hsteps'⟩, rfl⟩
  obtain ⟨parts, hparts, hmap⟩ := exists_map_eq hsegment
  refine ⟨parts, hparts, ?_⟩
  rw [ofText, hmap]
  exact congrArg (Plan.mk p.segments) (total_of_build h).symm

end

/-! ## Failures -/

/-- The failure lies in how a pipeline is defined, kept or asked for. -/
def Failure.isStructural : Failure → Bool
  | wrongValueType .. | wrongResponseType .. | duplicatePipeline .. | invalidPipeline ..
  | other .. => true
  | unknownPipeline .. | missingValue .. | stepFailed .. | forbidden .. => false

/-! ## What the registry of a document finds -/

namespace Document

variable {d : Document} {r : Registry}

/-- A blueprint of the document is for the name and the layer, or is the default of the name. -/
def Offers (d : Document) (name : String) (layer : Option String) : Prop :=
  ∃ b ∈ d.blueprints, b.name = name ∧ (b.layer = layer ∨ b.layer = none)

theorem offers_iff_of_yields {catalog : Catalog String} {variants : List (Variant String)}
    (h : List.Forall₂ (Blueprint.Yields catalog d.blueprints) d.blueprints variants)
    (name : String) (layer : Option String) :
    d.Offers name layer ↔
      ∃ v ∈ variants, v.name = name ∧ (v.layer = layer ∨ v.layer = none) := by
  have hkeys : (∃ key ∈ variants.map Variant.key,
      key.name = name ∧ (key.layer = layer ∨ key.layer = none)) ↔
      ∃ key ∈ d.blueprints.map Blueprint.key,
        key.name = name ∧ (key.layer = layer ∨ key.layer = none) := by
    rw [Blueprint.map_key_of_yields h]
  simp only [List.mem_map, exists_exists_and_eq_and] at hkeys
  exact hkeys.symm

theorem resolve_cases (hr : d.registry = .ok r) (name : String) (layer : Option String) :
    (¬d.Offers name layer ∧
      r.resolve .string name layer = .error (.unknownPipeline name layer)) ∨
    (d.Offers name layer ∧ ∃ v plan, r.resolve .string name layer = .ok v ∧
      Plan.build v = .ok plan ∧ v.DrawnFrom d.toolbox.catalog) := by
  obtain ⟨variants, hlink, rfl, haccepted⟩ := registry_eq_ofHistory hr
  have hyields := Blueprint.link_eq_ok_iff.1 hlink
  rw [offers_iff_of_yields hyields]
  cases hfind : (variants.find? fun v => v.name = name ∧ v.layer = layer).or
      (variants.find? fun v => v.name = name ∧ v.layer = none) with
  | none =>
      refine .inl ⟨?_, Registry.resolve_of_accepted haccepted hfind⟩
      rintro ⟨v, hv, hname, hlayer⟩
      rw [Option.or_eq_none_iff, List.find?_eq_none, List.find?_eq_none] at hfind
      obtain hlayer | hlayer := hlayer
      · exact hfind.1 v hv (by simp [hname, hlayer])
      · exact hfind.2 v hv (by simp [hname, hlayer])
  | some v =>
      have hresolve := Registry.resolve_of_accepted haccepted hfind
      have hv : v ∈ variants ∧ v.name = name ∧ (v.layer = layer ∨ v.layer = none) := by
        obtain hexact | ⟨-, hdefault⟩ := Option.or_eq_some_iff.1 hfind
        · have hmatch := List.find?_some hexact
          simp only [decide_eq_true_eq] at hmatch
          exact ⟨List.mem_of_find?_eq_some hexact, hmatch.1, .inl hmatch.2⟩
        · have hmatch := List.find?_some hdefault
          simp only [decide_eq_true_eq] at hmatch
          exact ⟨List.mem_of_find?_eq_some hdefault, hmatch.1, .inr hmatch.2⟩
      obtain ⟨held, hheld, hflat, -⟩ := Registry.resolve_ok hresolve
      obtain ⟨l, -, hl⟩ := (Registry.consistent_ofHistory _).exists_listing hheld hflat
      obtain ⟨plan, hplan, -⟩ := hl.steps
      have hflip : List.Forall₂ (flip (Blueprint.Yields d.toolbox.catalog d.blueprints))
          variants d.blueprints := List.Forall₂.flip hyields
      obtain ⟨b, -, hb⟩ := exists_of_mem_forall₂ hflip hv.1
      exact .inr ⟨⟨v, hv⟩, v.flatten, plan, hresolve, hplan, hb.drawnFrom⟩

/-- What an execution that asks the registry of `d` for a name and a layer can come to. -/
structure Safe (d : Document) (name : String) (layer : Option String) (id : ExecutionId)
    (work : Workspace String) (e : Execution String) : Prop where
  textual : e.work.context.Textual
  unknown_iff : (∃ name' layer', e.failure = some (.unknownPipeline name' layer')) ↔
    ¬d.Offers name layer
  idle : ¬d.Offers name layer → e =
    { failure := some (.unknownPipeline name layer), work,
      log := [.event (.pipelineCompleted id .failed 0 none)] }
  /-- A failure is raised by a declared step, and at most exchanged by a declared interceptor
  that translates it. -/
  raised : d.Offers name layer → ∀ failure, e.failure = some failure →
    ∃ c ∈ e.calls, ∃ s ∈ d.toolbox.steps, ∃ position cause,
      c.callback = .step position s.id (.error cause) ∧ s.Raises c.entry cause ∧
      (failure = cause ∨ ∃ i ∈ d.toolbox.interceptors, ∃ message key,
        i.kind = .recover .translate message key ∧
          failure = .stepFailed i.id (message.getD ""))
  unstructural : ∀ failure, e.failure = some failure → failure.isStructural = false

variable {name : String} {layer : Option String} {work : Workspace String}

theorem safe_of_unknown (hoffers : ¬d.Offers name layer)
    (hresolve : r.resolve .string name layer = .error (.unknownPipeline name layer))
    (id : ExecutionId) (clock : Clock) (hwork : work.context.Textual) :
    d.Safe name layer id work (r.execute .string name layer id clock work) := by
  have hof := Execution.Of.pipeline r .string name layer id clock work
  rw [hresolve] at hof
  have he : r.execute .string name layer id clock work = _ := hof.eq_of_error rfl
  rw [he]
  exact {
    textual := hwork
    unknown_iff := ⟨fun _ => hoffers, fun _ => ⟨name, layer, rfl⟩⟩
    idle := fun _ => rfl
    raised := fun hoffered => absurd hoffered hoffers
    unstructural := fun failure hfailure => by
      obtain rfl : _ = failure := Option.some.inj hfailure
      rfl }

/-- A run of declared text segments on a context of texts fails with what a step raises, or
with what is put in its stead. -/
theorem exists_raises_of_failure {t : Toolbox} {parts : List TextSegment}
    (hparts : ∀ part ∈ parts, part.DrawnFrom t) (hwork : work.context.Textual) {failure : Failure}
    (h : ((Plan.ofText parts).run work).failure = some failure) :
    ∃ c ∈ ((Plan.ofText parts).run work).calls, ∃ s ∈ t.steps, ∃ position cause,
      c.callback = .step position s.id (.error cause) ∧ s.Raises c.entry cause ∧
      (failure = cause ∨ ∃ i ∈ t.interceptors, ∃ message key,
        i.kind = .recover .translate message key ∧
          failure = .stepFailed i.id (message.getD "")) := by
  obtain ⟨c, hc, part, cause, hpart, hfails, hpass⟩ :=
    (Plan.failure_ofText_iff parts work failure).1 h
  have hdrawn := hparts part (List.mem_of_getElem? hpart)
  obtain ⟨part', hpart', hmakes⟩ := Plan.makes_of_mem_calls_ofText hc
  obtain rfl : part = part' := Option.some.inj (hpart.symm.trans hpart')
  obtain ⟨s, hs, position, hcall, hact⟩ := TextSegment.exists_step_of_makes hmakes hfails
  have hentry := (Plan.textual_ofText parts hwork).1 c hc
  refine ⟨c, hc, s, hdrawn.mem_steps hs, position, cause, ?_,
    (TextStep.act_eq_error_iff hentry).1 hact, ?_⟩
  · rw [hcall, Step.call, hact]
    rfl
  · obtain heq | ⟨i, steps, message, key, rfl, hkind, heq⟩ := TextSegment.eq_of_passOn hpass
    · exact .inl heq
    · exact .inr ⟨i, hdrawn.1, message, key, hkind, heq⟩

theorem safe_of_plan (hoffers : d.Offers name layer) {v : Variant String} {plan : Plan String}
    (hresolve : r.resolve .string name layer = .ok v) (hplan : Plan.build v = .ok plan)
    (hv : v.DrawnFrom d.toolbox.catalog) (id : ExecutionId) (clock : Clock)
    (hwork : work.context.Textual) :
    d.Safe name layer id work (r.execute .string name layer id clock work) := by
  obtain ⟨parts, hparts, rfl⟩ := Plan.exists_ofText hplan hv
  have he : r.execute .string name layer id clock work =
      Execution.run id clock (.new name layer) v work := by rw [Registry.execute, hresolve]
  rw [he]
  have hraised (failure : Failure)
      (hfailure : (Execution.run id clock (.new name layer) v work).failure = some failure) := by
    rw [Execution.failure_run hplan] at hfailure
    exact exists_raises_of_failure hparts hwork hfailure
  exact {
    textual := by
      rw [Execution.work_run hplan]
      exact (Plan.textual_ofText parts hwork).2
    unknown_iff := by
      refine ⟨?_, absurd hoffers⟩
      rintro ⟨name', layer', hfailure⟩
      obtain ⟨c, -, s, -, position, cause, -, hraises, rfl | ⟨i, -, message, key, -, heq⟩⟩ :=
        hraised _ hfailure
      · cases hraises
      · cases heq
    idle := fun hunknown => absurd hoffers hunknown
    raised := fun _ failure hfailure => by
      rw [Execution.calls_run hplan]
      exact hraised failure hfailure
    unstructural := fun failure hfailure => by
      obtain ⟨c, -, s, -, position, cause, -, hraises, rfl | ⟨i, -, message, key, -, rfl⟩⟩ :=
        hraised _ hfailure
      · cases hraises <;> rfl
      · rfl }

/-- On a context of texts an execution of what a document registers fails for what its steps
do, or for a name and a layer that the document does not offer, and it leaves a context of
texts in any case.  The document need not have passed its checks. -/
theorem execute_safe (hr : d.registry = .ok r) (name : String) (layer : Option String)
    (id : ExecutionId) (clock : Clock) (hwork : work.context.Textual) :
    d.Safe name layer id work (r.execute .string name layer id clock work) := by
  obtain ⟨hoffers, hresolve⟩ | ⟨hoffers, v, plan, hresolve, hplan, hv⟩ :=
    resolve_cases hr name layer
  · exact safe_of_unknown hoffers hresolve id clock hwork
  · exact safe_of_plan hoffers hresolve hplan hv id clock hwork

/-- A letter opens with what the context holds as its salutation, and goes on with a name. -/
def letters : Document where
  toolbox := { steps := [⟨"salute", .seed "salutation" ", "⟩, ⟨"address", .appendKey "name"⟩] }
  blueprints := [{ name := "letter", steps := ["salute", "address"] }]

def saluted : Workspace String := ⟨Context.empty.putText "salutation" "Dear", ""⟩

/-- The step that opens the letter reads a text, and the next one finds none. -/
theorem execute_safe_letters :
    saluted.context.Textual ∧ letters.Offers "letter" (some "post") ∧ ¬letters.Offers "card" none ∧
    ∃ r, letters.registry = .ok r ∧ ∀ id clock,
      letters.Safe "letter" (some "post") id saluted
        (r.execute .string "letter" (some "post") id clock saluted) ∧
      (r.execute .string "letter" (some "post") id clock saluted).failure =
        some (.missingValue "name") ∧
      (r.execute .string "letter" (some "post") id clock saluted).work.response = "Dear, " ∧
      letters.Safe "card" none id saluted (r.execute .string "card" none id clock saluted) := by
  have htextual : saluted.context.Textual := Context.textual_empty.putText "salutation" "Dear"
  have hletter : letters.Offers "letter" (some "post") := ⟨_, List.mem_cons_self, rfl, .inr rfl⟩
  have hcard : ¬letters.Offers "card" none := by simp [Offers, letters]
  obtain ⟨letter, hlink, hname, hlayer, hnodup, hnone, hweave⟩ : ∃ letter,
      Blueprint.link letters.toolbox.catalog letters.blueprints = .ok [letter] ∧
      letter.name = "letter" ∧ letter.layer = none ∧ letter.flatten.stepIds.Nodup ∧
      letter.flatten.interceptors = [] ∧ letter.flatten.weave = .ok
        [TextStep.toStep ⟨"salute", .seed "salutation" ", "⟩,
          TextStep.toStep ⟨"address", .appendKey "name"⟩] :=
    ⟨_, rfl, rfl, rfl, by decide, rfl, rfl⟩
  obtain ⟨r, hr⟩ := registry_of_runnable (Blueprint.check_eq_ok_iff.1 rfl) hlink (by
    simp [Variant.Runnable.of_weave hnodup hnone hweave])
  have hresolve : r.resolve .string "letter" (some "post") = .ok letter.flatten := by
    obtain ⟨variants, hvariants, rfl, haccepted⟩ := registry_eq_ofHistory hr
    obtain rfl : [letter] = variants := Except.ok.inj (hlink.symm.trans hvariants)
    have hfound : ([letter].find? fun v => v.name = "letter" ∧ v.layer = some "post").or
        ([letter].find? fun v => v.name = "letter" ∧ v.layer = none) = some letter := by
      simp [hname, hlayer]
    exact Registry.resolve_of_accepted haccepted hfound
  have hplan := Plan.build_of_interceptors_nil hweave hnone
  refine ⟨htextual, hletter, hcard, r, hr, fun id clock => ⟨?_, ?_, ?_, ?_⟩⟩
  · exact execute_safe hr "letter" (some "post") id clock htextual
  · rw [Registry.execute, hresolve]
    exact Execution.failure_run hplan ..
  · rw [Registry.execute, hresolve]
    exact congrArg Workspace.response (Execution.work_run hplan ..)
  · exact execute_safe hr "card" none id clock htextual

end Document

end StepWeave

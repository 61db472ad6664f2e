import StepWeave.Document
import StepWeave.Proofs.Blueprint.Register
import StepWeave.Proofs.Catalog
import StepWeave.Proofs.Plan.Partition

/-!
# Registries of documents

A document whose blueprints pass their check makes up a registry just when it declares all
that they refer to and all their variants can be run, and the registry lists them in the order
of the document (`Document.registry_exact`).
-/

namespace StepWeave

/-! ## What a document declares and lists -/

/-- The ids to which the blueprint refers are declared in the document, those of steps that
its delegate makes idle included. -/
structure Document.Declares (d : Document) (b : Blueprint) : Prop where
  steps : ∀ id ∈ b.steps, id ∈ d.toolbox.steps.map (·.id)
  extensions : ∀ id ∈ b.extensions.values, id ∈ d.toolbox.steps.map (·.id)
  interceptors : ∀ id ∈ b.interceptors, id ∈ d.toolbox.interceptors.map (·.id)

/-- The listing shows the blueprint `b`, of which linking makes the variant `v`. -/
structure Listing.Shows (l : Listing) (b : Blueprint) (v : Variant String) : Prop where
  name : l.name = b.name
  layer : l.layer = b.layer
  delegate : l.delegate = b.delegate.map fun target => (target.name, target.layer)
  steps : ∃ woven, v.flatten.weave = .ok woven ∧ l.steps = woven.map (·.id)
  responseType : l.responseType = ValueType.string.name

theorem Document.declares_iff {d : Document} {b : Blueprint} :
    d.Declares b ↔ b.KnownTo d.toolbox.catalog := by
  constructor
  · intro h
    exact {
      steps := fun id hid => (d.toolbox.exists_step?_iff id).2 (h.steps id hid)
      extensions := fun id hid => (d.toolbox.exists_step?_iff id).2 (h.extensions id hid)
      interceptors := fun id hid =>
        (d.toolbox.exists_interceptor?_iff id).2 (h.interceptors id hid) }
  · intro h
    exact {
      steps := fun id hid => (d.toolbox.exists_step?_iff id).1 (h.steps id hid)
      extensions := fun id hid => (d.toolbox.exists_step?_iff id).1 (h.extensions id hid)
      interceptors := fun id hid =>
        (d.toolbox.exists_interceptor?_iff id).1 (h.interceptors id hid) }

theorem Listing.shows_of {catalog : Catalog String} {all : List Blueprint} {b : Blueprint}
    {v : Variant String} {plan : Plan String} (h : b.Yields catalog all v)
    (hplan : Plan.build v.flatten = .ok plan) :
    (Listing.of v v.flatten plan ValueType.string.name).Shows b v where
  name := v.name_flatten.trans h.base.name
  layer := v.layer_flatten.trans h.base.layer
  delegate := by
    rw [← h.delegate_key, Option.map_map]
    rfl
  steps := ⟨plan.steps, Plan.steps_of_build hplan, rfl⟩
  responseType := rfl

namespace Document

variable {d : Document}

/-! ## Making the registry -/

/-- The registry is made, or a declaration is missing, or a variant cannot be run. -/
theorem registry_cases (h : Blueprint.Sound d.blueprints) :
    (∃ cause, Blueprint.link d.toolbox.catalog d.blueprints = .error cause ∧
      d.registry = .error { cause } ∧
      ∃ b ∈ d.blueprints, b.Misses d.toolbox.catalog cause) ∨
    ∃ variants, Blueprint.link d.toolbox.catalog d.blueprints = .ok variants ∧
      (((∀ v ∈ variants, v.flatten.Runnable) ∧ ∃ r, d.registry = .ok r ∧
        List.Forall₂ (fun v l => ∃ plan, Plan.build v.flatten = .ok plan ∧
          l = .of v v.flatten plan ValueType.string.name) variants r.listings) ∨
      ∃ v ∈ variants, ¬v.flatten.Runnable ∧ ∃ defect, d.registry =
        .error ⟨[.registering v.key], .refused (v.invalid defect)⟩) := by
  cases hlink : Blueprint.link d.toolbox.catalog d.blueprints with
  | error cause =>
      refine .inl ⟨cause, rfl, ?_, h.misses_of_link hlink⟩
      simp [registry, Blueprint.registerAll, hlink]
  | ok variants =>
      refine .inr ⟨variants, rfl, ?_⟩
      have hyields := Blueprint.link_eq_ok_iff.1 hlink
      have hroom : ∀ v ∈ variants, Registry.empty.HasRoom .string v.name v.layer :=
        fun _ _ => Registry.hasRoom_of_unbound rfl
      have hkeys : (variants.map Variant.key).Nodup := by
        rw [Blueprint.map_key_of_yields hyields]
        exact h.distinct
      obtain ⟨hrunnable, r, listings, heach, hlistings, hof⟩ |
          ⟨v, hv, hrunnable, defect, r, heach⟩ :=
        Blueprint.registerEach_cases ValueType.string hroom hkeys
      · obtain rfl : r.listings = listings := hlistings
        exact .inl ⟨hrunnable, r, by simp [registry, Blueprint.registerAll, hlink, heach], hof⟩
      · exact .inr ⟨v, hv, hrunnable, defect,
          by simp [registry, Blueprint.registerAll, hlink, heach]⟩

/-- A registry that is made comes from registering all variants, each with success. -/
theorem registry_eq_ofHistory {r : Registry} (hr : d.registry = .ok r) : ∃ variants,
    Blueprint.link d.toolbox.catalog d.blueprints = .ok variants ∧
    r = Registry.ofHistory (variants.map (.mk ValueType.string)) ∧
    Registry.accepted .empty (variants.map (.mk ValueType.string)) =
      variants.map (.mk ValueType.string) := by
  unfold registry Blueprint.registerAll at hr
  cases hlink : Blueprint.link d.toolbox.catalog d.blueprints with
  | error cause => simp [hlink] at hr
  | ok variants =>
      cases heach : Blueprint.registerEach ValueType.string variants .empty with
      | mk answer r' =>
          cases answer with
          | error e => simp [hlink, heach] at hr
          | ok =>
              obtain rfl : r' = r := by simpa [hlink, heach] using hr
              exact ⟨variants, rfl, Blueprint.registerEach_eq_ok ValueType.string heach⟩

theorem exists_link_iff (h : Blueprint.Sound d.blueprints) :
    (∃ variants, Blueprint.link d.toolbox.catalog d.blueprints = .ok variants) ↔
      ∀ b ∈ d.blueprints, d.Declares b := by
  simp only [declares_iff]
  exact h.exists_link_iff

theorem exists_registry_iff (h : Blueprint.Sound d.blueprints) :
    (∃ r, d.registry = .ok r) ↔ (∀ b ∈ d.blueprints, d.Declares b) ∧
      ∀ variants, Blueprint.link d.toolbox.catalog d.blueprints = .ok variants →
        ∀ v ∈ variants, v.flatten.Runnable := by
  rw [← exists_link_iff h]
  obtain ⟨cause, hlink, hregistry, -⟩ | ⟨variants, hlink, hregistry⟩ := registry_cases h
  · simp [hlink, hregistry]
  · obtain ⟨hrunnable, r, hregistry, -⟩ | ⟨v, hv, hrunnable, defect, hregistry⟩ := hregistry
    · simpa [hlink, hregistry] using hrunnable
    · simp only [hlink, hregistry, reduceCtorEq, exists_false, false_iff, not_and, not_forall]
      exact fun _ => ⟨variants, rfl, v, hv, hrunnable⟩

theorem registry_of_runnable (h : Blueprint.Sound d.blueprints) {variants : List (Variant String)}
    (hlink : Blueprint.link d.toolbox.catalog d.blueprints = .ok variants)
    (hrunnable : ∀ v ∈ variants, v.flatten.Runnable) : ∃ r, d.registry = .ok r := by
  refine (exists_registry_iff h).2 ⟨(exists_link_iff h).1 ⟨variants, hlink⟩, ?_⟩
  intro variants' hlink'
  obtain rfl := Except.ok.inj (hlink.symm.trans hlink')
  exact hrunnable

theorem shows_of_registry (h : Blueprint.Sound d.blueprints) {r : Registry}
    (hr : d.registry = .ok r) : ∃ variants,
      Blueprint.link d.toolbox.catalog d.blueprints = .ok variants ∧
      r.listings.length = d.blueprints.length ∧
      ∀ (n : Nat) b, d.blueprints[n]? = some b → ∃ v l,
        variants[n]? = some v ∧ r.listings[n]? = some l ∧ l.Shows b v := by
  obtain ⟨cause, -, hregistry, -⟩ | ⟨variants, hlink, hregistry⟩ := registry_cases h
  · rw [hr] at hregistry
    cases hregistry
  · obtain ⟨-, r', hregistry, hof⟩ | ⟨v, -, -, defect, hregistry⟩ := hregistry
    · rw [hr] at hregistry
      cases hregistry
      have hyields := Blueprint.link_eq_ok_iff.1 hlink
      refine ⟨variants, hlink, hof.length_eq.symm.trans hyields.length_eq.symm, ?_⟩
      intro n b hb
      obtain ⟨v, hv, hyieldsv⟩ := exists_getElem?_of_forall₂ hyields hb
      obtain ⟨l, hl, plan, hplan, rfl⟩ := exists_getElem?_of_forall₂ hof hv
      exact ⟨v, _, hv, hl, Listing.shows_of hyieldsv hplan⟩
    · rw [hr] at hregistry
      cases hregistry

/-- A registry is not made for want of a declaration, or for a variant that is invalid in
itself. -/
theorem registry_error (h : Blueprint.Sound d.blueprints) {e : LoadError}
    (he : d.registry = .error e) : (∃ b ∈ d.blueprints, b.Misses d.toolbox.catalog e.cause) ∨
      ∃ name layer defect, e.cause = .refused (.invalidPipeline name layer defect) := by
  obtain ⟨cause, -, hregistry, hmisses⟩ | ⟨variants, hlink, hregistry⟩ := registry_cases h
  · rw [he] at hregistry
    cases hregistry
    exact .inl hmisses
  · obtain ⟨-, r, hregistry, -⟩ | ⟨v, -, -, defect, hregistry⟩ := hregistry
    · rw [he] at hregistry
      cases hregistry
    · rw [he] at hregistry
      cases hregistry
      exact .inr ⟨v.name, v.layer, defect, rfl⟩

/-- Blueprints that pass their check, with whatever toolbox, make up a registry just when all
that they refer to is declared and every variant can be run with its delegate written out.
The registry lists them in order, and none of them is ever refused for the sake of another. -/
theorem registry_exact (h : Blueprint.check d.blueprints = .ok ()) :
    ((∃ variants, Blueprint.link d.toolbox.catalog d.blueprints = .ok variants) ↔
      ∀ b ∈ d.blueprints, d.Declares b) ∧
    ((∃ r, d.registry = .ok r) ↔ (∀ b ∈ d.blueprints, d.Declares b) ∧
      ∀ variants, Blueprint.link d.toolbox.catalog d.blueprints = .ok variants →
        ∀ v ∈ variants, v.flatten.Runnable) ∧
    (∀ r, d.registry = .ok r → ∃ variants,
      Blueprint.link d.toolbox.catalog d.blueprints = .ok variants ∧
      r.listings.length = d.blueprints.length ∧
      ∀ (n : Nat) b, d.blueprints[n]? = some b → ∃ v l,
        variants[n]? = some v ∧ r.listings[n]? = some l ∧ l.Shows b v) ∧
    ∀ e, d.registry = .error e →
      (∀ name layer, e.cause ≠ .refused (.duplicatePipeline name layer)) ∧
      ∀ name registered requested,
        e.cause ≠ .refused (.wrongResponseType name registered requested) := by
  have hsound := Blueprint.check_eq_ok_iff.1 h
  refine ⟨exists_link_iff hsound, exists_registry_iff hsound,
    fun r hr => shows_of_registry hsound hr, fun e he => ?_⟩
  obtain ⟨b, -, hmisses⟩ | ⟨name, layer, defect, hcause⟩ := registry_error hsound he
  · constructor
    · intro name layer heq
      rw [heq] at hmisses
      cases hmisses
    · intro name registered requested heq
      rw [heq] at hmisses
      cases hmisses
  · rw [hcause]
    simp

/-- A greeting, and a warm one that delegates to it before it is defined. -/
def greetings : Document where
  toolbox := { steps := [⟨"hello", .append "hello"⟩, ⟨"wink", .hook⟩] }
  blueprints :=
    [{ name := "warm", delegate := some ⟨"greeting", none⟩,
        extensions := .ofList [("hello", "wink")] },
      { name := "greeting", steps := ["hello"] }]

theorem exists_registry_greetings : ∃ r, greetings.registry = .ok r := by
  obtain ⟨warm, plain, hlink, hwarm, hplain⟩ : ∃ warm plain,
      Blueprint.link greetings.toolbox.catalog greetings.blueprints = .ok [warm, plain] ∧
      warm.flatten.Runnable ∧ plain.flatten.Runnable :=
    ⟨_, _, rfl, .of_weave (by decide) rfl rfl, .of_weave (by decide) rfl rfl⟩
  exact registry_of_runnable (Blueprint.check_eq_ok_iff.1 rfl) hlink (by simp [hwarm, hplain])

theorem registry_exact_greetings :
    Blueprint.check greetings.blueprints = .ok () ∧
    (∀ b ∈ greetings.blueprints, greetings.Declares b) ∧
    ∃ r, greetings.registry = .ok r ∧ r.listings.length = 2 ∧
      ∃ l, r.listings[0]? = some l ∧ l.name = "warm" ∧ l.delegate = some ("greeting", none) ∧
        l.steps = ["hello", "wink"] := by
  have hcheck : Blueprint.check greetings.blueprints = .ok () := rfl
  obtain ⟨hlinked, hmade, hlisted, -⟩ := registry_exact hcheck
  obtain ⟨warm, plain, woven, hlink, hwarm, hplain, hweave, hids⟩ :
      ∃ warm plain woven,
        Blueprint.link greetings.toolbox.catalog greetings.blueprints = .ok [warm, plain] ∧
        warm.flatten.Runnable ∧ plain.flatten.Runnable ∧
        warm.flatten.weave = .ok woven ∧ woven.map (·.id) = ["hello", "wink"] :=
    ⟨_, _, _, rfl, .of_weave (by decide) rfl rfl, .of_weave (by decide) rfl rfl,
      rfl, rfl⟩
  have hdeclared : ∀ b ∈ greetings.blueprints, greetings.Declares b := hlinked.1 ⟨_, hlink⟩
  obtain ⟨r, hr⟩ := hmade.2 ⟨hdeclared, fun variants hvariants => by
    obtain rfl : [warm, plain] = variants := by simpa using hlink.symm.trans hvariants
    simp [hwarm, hplain]⟩
  obtain ⟨variants, hvariants, hlength, hshown⟩ := hlisted r hr
  obtain rfl : [warm, plain] = variants := by simpa using hlink.symm.trans hvariants
  obtain ⟨v, l, hv, hl, hshows⟩ := hshown 0 _ rfl
  obtain rfl : warm = v := by simpa using hv
  obtain ⟨woven', hweave', hsteps⟩ := hshows.steps
  obtain rfl : woven = woven' := by simpa using hweave.symm.trans hweave'
  exact ⟨hcheck, hdeclared, r, hr, hlength, l, hl, hshows.name, hshows.delegate,
    hsteps.trans hids⟩

end Document

end StepWeave

import Mathlib.Data.List.Perm.Basic
import Mathlib.Data.List.Sort
import StepWeave.Proofs.Document
import StepWeave.Proofs.Execution.Registered
import StepWeave.Proofs.Registry.Inventory
import StepWeave.Proofs.Toolbox

/-!
# Documents in another order

Whether a step, an interceptor or a blueprint stands earlier or later in a document decides
nothing but the order of the listings (`Document.order_irrelevant`).  Where ids and keys are
distinct, looking up finds the same in every order, and so do linking and the registry.
-/

namespace StepWeave

/-! ## Toolboxes -/

namespace Toolbox

variable {t t' : Toolbox}

theorem Sound.of_perm (h : t.Sound) (hsteps : t.steps.Perm t'.steps)
    (hinterceptors : t.interceptors.Perm t'.interceptors) : t'.Sound where
  steps := (hsteps.map _).nodup_iff.1 h.steps
  interceptors := (hinterceptors.map _).nodup_iff.1 h.interceptors
  messages i hi := h.messages i (hinterceptors.mem_iff.2 hi)

theorem Sound.catalog_of_perm (h : t.Sound) (hsteps : t.steps.Perm t'.steps)
    (hinterceptors : t.interceptors.Perm t'.interceptors) : t.catalog = t'.catalog := by
  have hsteps' : t.catalog.steps = t'.catalog.steps := by
    apply Keyed.ext_find?
    intro id
    have hids : (t.steps.reverse.map TextStep.id).Nodup := by
      rw [List.map_reverse, List.nodup_reverse]
      exact h.steps
    have hperm : t.steps.reverse.Perm t'.steps.reverse :=
      t.steps.reverse_perm.trans (hsteps.trans t'.steps.reverse_perm.symm)
    show t.catalog.step? id = t'.catalog.step? id
    rw [step?_catalog, step?_catalog, find?_key_of_perm hperm hids id]
  have hinterceptors' : t.catalog.interceptors = t'.catalog.interceptors := by
    apply Keyed.ext_find?
    intro id
    have hids : (t.interceptors.reverse.map TextInterceptor.id).Nodup := by
      rw [List.map_reverse, List.nodup_reverse]
      exact h.interceptors
    have hperm : t.interceptors.reverse.Perm t'.interceptors.reverse :=
      t.interceptors.reverse_perm.trans (hinterceptors.trans t'.interceptors.reverse_perm.symm)
    show t.catalog.interceptor? id = t'.catalog.interceptor? id
    rw [interceptor?_catalog, interceptor?_catalog, find?_key_of_perm hperm hids id]
  cases hcatalog : t.catalog
  cases hcatalog' : t'.catalog
  simp_all

end Toolbox

/-! ## Blueprints -/

namespace Blueprint

variable {R : Type} {catalog : Catalog R} {all all' : List Blueprint}
  {variants : List (Variant R)}

theorem Sound.of_perm (h : Sound all) (hperm : all.Perm all') : Sound all' where
  distinct := (hperm.map key).nodup_iff.1 h.distinct
  delegates b hb target hdelegate := by
    obtain ⟨hne, t, ht, hkey⟩ := h.delegates b (hperm.mem_iff.2 hb) target hdelegate
    exact ⟨hne, t, hperm.mem_iff.1 ht, hkey⟩

/-- What a blueprint yields does not depend on where its delegate stands. -/
theorem Sound.yields_of_perm (h : Sound all) (hperm : all.Perm all') {b : Blueprint}
    {v : Variant R} (hv : b.Yields catalog all v) : b.Yields catalog all' v where
  base := hv.base
  delegate := by
    have hdelegate := hv.delegate
    simp only [find?_key_of_perm hperm h.distinct] at hdelegate
    exact hdelegate

theorem Sound.link_of_perm (h : Sound all) (hperm : all.Perm all')
    (hlink : link catalog all = .ok variants) :
    ∃ variants', link catalog all' = .ok variants' ∧ variants.Perm variants' := by
  have hyields := (link_eq_ok_iff.1 hlink).imp fun _ _ hv => h.yields_of_perm hperm hv
  obtain ⟨variants', hyields', hvariants⟩ := List.perm_comp_forall₂ hperm.symm hyields
  exact ⟨variants', link_eq_ok_iff.2 hyields', hvariants.symm⟩

end Blueprint

/-! ## Registries -/

namespace Registry

variable {history history' : List Registration}

/-- The answers do not depend on the order in which variants were registered. -/
theorem resolve_of_perm (h : (accepted .empty history).Perm (accepted .empty history'))
    (type : ValueType) (name : String) (layer : Option String) :
    (ofHistory history).resolve type name layer =
      (ofHistory history').resolve type name layer := by
  have hkeys : ((accepted .empty history).map fun g => (g.name, g.layer)).Nodup :=
    List.pairwise_map.2 (pairwise_accepted history)
  have htypes : ∀ g ∈ accepted .empty history, ∀ g' ∈ accepted .empty history,
      g'.name = g.name → g'.type = g.type :=
    fun g hg g' hg' => type_eq_of_mem_accepted history hg hg'
  rw [(recounts_ofHistory history).resolve_eq, (recounts_ofHistory history').resolve_eq]
  exact reference_of_perm h hkeys htypes type name layer

/-- The names are those that are listed, in their own order. -/
theorem names_of_perm
    (h : (ofHistory history).listings.Perm (ofHistory history').listings) :
    (ofHistory history).names = (ofHistory history').names := by
  have hmem (history : List Registration) (name : String) :
      name ∈ (ofHistory history).names ↔ ∃ l ∈ (ofHistory history).listings, l.name = name :=
    (consistent_ofHistory history).mem_names (occupied_ofHistory history) name
  refine List.Pairwise.eq_of_mem_iff (ofHistory history).entries.pairwise_keys
    (ofHistory history').entries.pairwise_keys fun name => ?_
  show name ∈ (ofHistory history).names ↔ name ∈ (ofHistory history').names
  rw [hmem, hmem]
  simp only [h.mem_iff]

/-- Registries that find the same variant execute it alike. -/
theorem alike_of_resolve {r r' : Registry} {type : ValueType} {name : String}
    {layer : Option String} (h : r.resolve type name layer = r'.resolve type name layer)
    (id id' : ExecutionId) (clock clock' : Clock) (work : Workspace type.Carrier) :
    Execution.Alike (r.execute type name layer id clock work)
      (r'.execute type name layer id' clock' work) := by
  rw [execute, execute, ← h]
  cases r.resolve type name layer with
  | ok v => exact Execution.alike_run v id id' clock clock' name layer work
  | error failure => exact ⟨⟨rfl, rfl, rfl⟩, rfl⟩

end Registry

/-! ## Documents -/

namespace Document

/-- Both parts of the document pass their checks. -/
structure Checked (d : Document) : Prop where
  toolbox : d.toolbox.check = .ok ()
  blueprints : Blueprint.check d.blueprints = .ok ()

/-- The lists of the two documents hold the same, in whatever order. -/
structure Reorders (d d' : Document) : Prop where
  steps : d.toolbox.steps.Perm d'.toolbox.steps
  interceptors : d.toolbox.interceptors.Perm d'.toolbox.interceptors
  blueprints : d.blueprints.Perm d'.blueprints

variable {d d' : Document}

theorem Reorders.symm (h : d.Reorders d') : d'.Reorders d :=
  ⟨h.steps.symm, h.interceptors.symm, h.blueprints.symm⟩

theorem Reorders.checked (h : d.Reorders d') (hd : d.Checked) : d'.Checked where
  toolbox := Toolbox.check_eq_ok_iff.2
    ((Toolbox.check_eq_ok_iff.1 hd.toolbox).of_perm h.steps h.interceptors)
  blueprints := Blueprint.check_eq_ok_iff.2
    ((Blueprint.check_eq_ok_iff.1 hd.blueprints).of_perm h.blueprints)

theorem Reorders.link (h : d.Reorders d') (hd : d.Checked) {variants : List (Variant String)}
    (hlink : Blueprint.link d.toolbox.catalog d.blueprints = .ok variants) :
    ∃ variants', Blueprint.link d'.toolbox.catalog d'.blueprints = .ok variants' ∧
      variants.Perm variants' := by
  rw [← (Toolbox.check_eq_ok_iff.1 hd.toolbox).catalog_of_perm h.steps h.interceptors]
  exact (Blueprint.check_eq_ok_iff.1 hd.blueprints).link_of_perm h.blueprints hlink

theorem Checked.sound (h : d.Checked) : Blueprint.Sound d.blueprints :=
  Blueprint.check_eq_ok_iff.1 h.blueprints

/-- `l` lists the variant `v` with the plan that is built of it. -/
def Lists (v : Variant String) (l : Listing) : Prop :=
  ∃ plan, Plan.build v.flatten = .ok plan ∧ l = .of v v.flatten plan ValueType.string.name

theorem rightUnique_lists : Relator.RightUnique Lists := by
  rintro v l l' ⟨plan, hplan, rfl⟩ ⟨plan', hplan', rfl⟩
  obtain rfl : plan = plan' := Except.ok.inj (hplan.symm.trans hplan')
  rfl

theorem Checked.runnable_of_registry (h : d.Checked) {r : Registry} (hr : d.registry = .ok r) :
    ∃ variants, Blueprint.link d.toolbox.catalog d.blueprints = .ok variants ∧
      (∀ v ∈ variants, v.flatten.Runnable) ∧ List.Forall₂ Lists variants r.listings := by
  obtain ⟨cause, -, hregistry, -⟩ | ⟨variants, hlink, ⟨hrunnable, r', hregistry, hof⟩ |
      ⟨v, -, -, defect, hregistry⟩⟩ := registry_cases h.sound
  · cases hr.symm.trans hregistry
  · obtain rfl : r = r' := Except.ok.inj (hr.symm.trans hregistry)
    exact ⟨variants, hlink, hrunnable, hof⟩
  · cases hr.symm.trans hregistry

/-- Both registries are made of the same variants, registered in another order. -/
theorem Reorders.registry (h : d.Reorders d') (hd : d.Checked) {r : Registry}
    (hr : d.registry = .ok r) :
    ∃ r', d'.registry = .ok r' ∧ r.names = r'.names ∧ r.listings.Perm r'.listings ∧
      ∀ type name layer, r.resolve type name layer = r'.resolve type name layer := by
  obtain ⟨variants, hlink, hrunnable, hof⟩ := hd.runnable_of_registry hr
  obtain ⟨variants', hlink', hvariants⟩ := h.link hd hlink
  have hrunnable' : ∀ v ∈ variants', v.flatten.Runnable :=
    fun v hv => hrunnable v (hvariants.mem_iff.2 hv)
  obtain ⟨r', hr'⟩ := registry_of_runnable (h.checked hd).sound hlink' hrunnable'
  obtain ⟨_, hlink'', -, hof'⟩ := (h.checked hd).runnable_of_registry hr'
  obtain rfl := Except.ok.inj (hlink'.symm.trans hlink'')
  have hlistings : r.listings.Perm r'.listings :=
    List.rel_perm_imp rightUnique_lists hof hof' hvariants
  obtain ⟨_, hlink'', rfl, haccepted⟩ := registry_eq_ofHistory hr
  obtain rfl := Except.ok.inj (hlink.symm.trans hlink'')
  obtain ⟨_, hlink'', rfl, haccepted'⟩ := registry_eq_ofHistory hr'
  obtain rfl := Except.ok.inj (hlink'.symm.trans hlink'')
  refine ⟨_, hr', Registry.names_of_perm hlistings, hlistings, fun type name layer => ?_⟩
  refine Registry.resolve_of_perm ?_ type name layer
  rw [haccepted, haccepted']
  exact hvariants.map _

theorem Reorders.exists_registry_iff (h : d.Reorders d') (hd : d.Checked) :
    (∃ r, d.registry = .ok r) ↔ ∃ r', d'.registry = .ok r' := by
  constructor
  · rintro ⟨r, hr⟩
    obtain ⟨r', hr', -⟩ := h.registry hd hr
    exact ⟨r', hr'⟩
  · rintro ⟨r', hr'⟩
    obtain ⟨r, hr, -⟩ := h.symm.registry (h.checked hd) hr'
    exact ⟨r, hr⟩

/-- Documents that list the same in another order pass their checks together and make up a
registry together.  The registries have the same names and, in some order, the same listings,
and what one executes the other executes alike, for whatever type it is asked. -/
theorem order_irrelevant (h : d.Reorders d') :
    (d.Checked ↔ d'.Checked) ∧
    (d.Checked →
      ((∃ r, d.registry = .ok r) ↔ ∃ r', d'.registry = .ok r') ∧
      ∀ r r', d.registry = .ok r → d'.registry = .ok r' →
        r.names = r'.names ∧ r.listings.Perm r'.listings ∧
        ∀ type name layer id id' clock clock' work,
          Execution.Alike (r.execute type name layer id clock work)
            (r'.execute type name layer id' clock' work)) := by
  refine ⟨⟨h.checked, h.symm.checked⟩, fun hd => ⟨h.exists_registry_iff hd, ?_⟩⟩
  intro r r' hr hr'
  obtain ⟨r'', hr'', hnames, hlistings, hresolve⟩ := h.registry hd hr
  obtain rfl : r' = r'' := Except.ok.inj (hr'.symm.trans hr'')
  refine ⟨hnames, hlistings, fun type name layer id id' clock clock' work => ?_⟩
  exact Registry.alike_of_resolve (hresolve type name layer) id id' clock clock' work

/-- The warm greeting after the one that it delegates to, and the steps the other way round. -/
def greetingsReordered : Document where
  toolbox := { steps := greetings.toolbox.steps.reverse }
  blueprints := greetings.blueprints.reverse

theorem order_irrelevant_greetings :
    greetings.Reorders greetingsReordered ∧ greetings.Checked ∧ greetingsReordered.Checked ∧
    greetings ≠ greetingsReordered ∧
    ∃ r r', greetings.registry = .ok r ∧ greetingsReordered.registry = .ok r' ∧
      r.names = r'.names ∧ r.listings.Perm r'.listings ∧
      ∀ id id' clock clock' work,
        Execution.Alike (r.execute .string "warm" (some "shop") id clock work)
          (r'.execute .string "warm" (some "shop") id' clock' work) := by
  have h : greetings.Reorders greetingsReordered :=
    ⟨greetings.toolbox.steps.reverse_perm.symm, .refl _, greetings.blueprints.reverse_perm.symm⟩
  have hd : greetings.Checked := ⟨rfl, rfl⟩
  obtain ⟨hchecked, hmade⟩ := order_irrelevant h
  obtain ⟨hexists, hsame⟩ := hmade hd
  obtain ⟨r, hr⟩ := exists_registry_greetings
  obtain ⟨r', hr'⟩ := hexists.1 ⟨r, hr⟩
  obtain ⟨hnames, hlistings, halike⟩ := hsame r r' hr hr'
  exact ⟨h, hd, hchecked.1 hd, by decide, r, r', hr, hr', hnames, hlistings,
    fun id id' clock clock' work => halike .string "warm" (some "shop") id id' clock clock' work⟩

end Document

end StepWeave

import Mathlib.Data.List.Nodup
import StepWeave.Proofs.Weave.Slots
import StepWeave.ValueType

/-!
# What is woven in, and how often

Every extension and every base step that is not replaced has one place in the layout, and
the base steps keep their order (`Accounts`).  One extension after the other is added to the
layout of the base steps alone.
-/

namespace StepWeave

open Layout

section

variable [Types] {R : Type}

/-- The position among the base steps. -/
def Origin.index? : Origin → Option Nat
  | base index => some index
  | extension _ => none

/-- The extensions that take the place of some base step. -/
def replacements (ids : List String) (extensions : List (String × Step R)) :
    List (String × Step R) :=
  extensions.filter fun e => (Hook.locate e.1 ids).any (·.placement = .replace)

/-- What the layout of some base steps and extensions consists of. -/
structure Accounts (steps : List (Step R)) (extensions : List (String × Step R)) : Prop where
  /-- Nothing has two places. -/
  nodup : ((layout steps extensions).map Thread.origin).Nodup
  extension_mem : ∀ hook step,
    ⟨.extension hook, step⟩ ∈ layout steps extensions ↔ (hook, step) ∈ extensions
  base_mem : ∀ index base,
    ⟨.base index, base⟩ ∈ layout steps extensions ↔
      steps[index]? = some base ∧
        ∀ e ∈ extensions, ¬ Replaces (steps.map (·.id)) e index
  /-- Base steps keep their order. -/
  ascending :
    (((layout steps extensions).map Thread.origin).filterMap Origin.index?).Pairwise (· < ·)
  length_add :
    (layout steps extensions).length + (replacements (steps.map (·.id)) extensions).length =
      steps.length + extensions.length

variable {steps : List (Step R)} {extensions : List (String × Step R)} {e : String × Step R}

theorem layout_nil (steps : List (Step R)) :
    layout steps [] = steps.mapIdx fun index base => ⟨.base index, base⟩ := by
  have hstrand : strand (steps.map (·.id)) [] =
      fun index (base : Step R) => [⟨.base index, base⟩] := rfl
  rw [layout, hstrand, ← map_mapIdx (fun t : Thread R => [t]), ← List.flatMap_def,
    List.flatMap_singleton']

theorem origins_layout_nil (steps : List (Step R)) :
    (layout steps []).map Thread.origin = (List.range steps.length).map Origin.base := by
  rw [layout_nil, map_mapIdx]
  apply List.ext_getElem <;> simp

theorem accounts_nil (steps : List (Step R)) : Accounts steps [] where
  nodup := by
    rw [origins_layout_nil]
    exact List.nodup_range.map fun _ _ => Origin.base.inj
  extension_mem := by
    intro hook step
    rw [layout_nil, List.mem_mapIdx]
    simp
  base_mem := by
    intro index base
    rw [layout_nil, List.mem_mapIdx, List.getElem?_eq_some_iff]
    simp
  ascending := by
    have hindex : Origin.index? ∘ Origin.base = some := rfl
    rw [origins_layout_nil, List.filterMap_map, hindex, List.filterMap_some]
    exact List.pairwise_lt_range
  length_add := by
    rw [layout_nil]
    simp [replacements]

/-- What an extension leaves of the layout that it is added to. -/
structure Leaves (ids : List String) (e : String × Step R) (was rest : List (Thread R)) :
    Prop where
  sublist : rest.Sublist was
  mem_iff : ∀ t, t ∈ rest ↔ t ∈ was ∧ ∀ index, t.origin = .base index → ¬ Replaces ids e index
  length_add : rest.length + (replacements ids [e]).length = was.length

theorem Accounts.exists_leaves {site : Site} (h : Accounts steps extensions)
    (hsite : Hook.locate e.1 (steps.map (·.id)) = some site)
    (hfree : ∀ other ∈ extensions, ¬ Rivals (steps.map (·.id)) other e) :
    ∃ before after, layout steps (e :: extensions) = before ++ .ofExtension e :: after ∧
      Leaves (steps.map (·.id)) e (layout steps extensions) (before ++ after) := by
  obtain ⟨before, after, hadded, hwas⟩ := layout_add [] extensions hsite
    ((forall_not_rivals_iff hsite).1 hfree)
  refine ⟨before, after, hadded, ?_⟩
  rw [List.nil_append] at hwas
  obtain ⟨hplacement, hwas⟩ | ⟨base, hplacement, -, hwas⟩ := hwas
  · have hnone (index : Nat) : ¬ Replaces (steps.map (·.id)) e index := by
      intro hreplaces
      cases hsite.symm.trans hreplaces
      exact hplacement rfl
    rw [hwas]
    exact ⟨.refl _, by simp [hnone], by simp [replacements, hsite, hplacement]⟩
  · have hreplaces (index : Nat) :
        Replaces (steps.map (·.id)) e index ↔ index = site.index := by
      obtain ⟨i, placement⟩ := site
      cases hplacement
      rw [Replaces, hsite]
      simp [eq_comm]
    have hnodup := h.nodup
    rw [hwas, List.map_append, List.map_cons, List.nodup_middle, List.nodup_cons,
      ← List.map_append] at hnodup
    have hsub : (before ++ after).Sublist (before ++ ⟨.base site.index, base⟩ :: after) :=
      (List.sublist_cons_self ..).append_left _
    rw [hwas]
    refine ⟨hsub, fun t => ?_, ?_⟩
    · simp only [hreplaces]
      constructor
      · intro ht
        refine ⟨hsub.subset ht, ?_⟩
        rintro index horigin rfl
        exact hnodup.1 (List.mem_map.2 ⟨t, ht, horigin⟩)
      · rintro ⟨ht, hother⟩
        simp only [List.mem_append, List.mem_cons] at ht ⊢
        obtain ht | rfl | ht := ht
        · exact .inl ht
        · exact absurd rfl (hother site.index rfl)
        · exact .inr ht
    · simp [replacements, hsite, hplacement]
      omega

theorem Accounts.add {site : Site} (h : Accounts steps extensions)
    (hnew : ∀ other ∈ extensions, other.1 ≠ e.1)
    (hsite : Hook.locate e.1 (steps.map (·.id)) = some site)
    (hfree : ∀ other ∈ extensions, ¬ Rivals (steps.map (·.id)) other e) :
    Accounts steps (e :: extensions) := by
  obtain ⟨before, after, hadded, hleaves⟩ := h.exists_leaves hsite hfree
  have hmem (t : Thread R) : t ∈ layout steps (e :: extensions) ↔
      t = .ofExtension e ∨ t ∈ before ++ after := by
    rw [hadded]
    simp only [List.mem_append, List.mem_cons]
    tauto
  have hsub := hleaves.sublist.map Thread.origin
  have hfresh : .extension e.1 ∉ (before ++ after).map Thread.origin := by
    intro hmap
    obtain ⟨⟨origin, step⟩, ht, rfl⟩ := List.mem_map.1 (hsub.subset hmap)
    exact hnew _ ((h.extension_mem _ _).1 ht) rfl
  refine ⟨?_, ?_, ?_, ?_, ?_⟩
  · rw [hadded, List.map_append, List.map_cons, List.nodup_middle, List.nodup_cons,
      ← List.map_append]
    exact ⟨hfresh, hsub.nodup h.nodup⟩
  · intro hook step
    rw [hmem, hleaves.mem_iff, h.extension_mem, List.mem_cons]
    simp [Thread.ofExtension, Prod.ext_iff]
  · intro index base
    rw [hmem, hleaves.mem_iff, h.base_mem, List.forall_mem_cons]
    simp [Thread.ofExtension]
    tauto
  · have hindex : ((layout steps (e :: extensions)).map Thread.origin).filterMap Origin.index? =
        ((before ++ after).map Thread.origin).filterMap Origin.index? := by
      rw [hadded, List.map_append, List.map_cons, List.filterMap_append,
        List.filterMap_cons_none rfl, ← List.filterMap_append, ← List.map_append]
    rw [hindex]
    exact h.ascending.sublist (hsub.filterMap _)
  · have hsplit : replacements (steps.map (·.id)) (e :: extensions) =
        replacements (steps.map (·.id)) [e] ++ replacements (steps.map (·.id)) extensions :=
      List.filter_append [e] extensions
    have hlength := hleaves.length_add
    have hwas := h.length_add
    rw [hadded, hsplit]
    simp only [List.length_append, List.length_cons] at hlength ⊢
    omega

theorem accounts_of_weavable {v : Variant R} (h : v.Weavable) :
    Accounts v.steps v.extensions.entries := by
  obtain ⟨hlocated, hrivals⟩ := Variant.weavable_iff.1 h
  have hkeys := v.extensions.ascending
  rw [Variant.stepIds] at hlocated hrivals
  generalize v.extensions.entries = entries at hlocated hrivals hkeys ⊢
  induction entries with
  | nil => exact accounts_nil v.steps
  | cons e rest ih =>
      rw [List.forall_mem_cons] at hlocated
      rw [List.pairwise_cons] at hrivals hkeys
      obtain ⟨⟨site, hsite⟩, hlocated⟩ := hlocated
      refine (ih hlocated hrivals.2 hkeys.2).add ?_ hsite ?_
      · intro other hother heq
        exact String.lt_irrefl e.1 (heq ▸ hkeys.1 other hother)
      · intro other hother h
        exact hrivals.1 other hother h.symm

theorem pairwise_extensionsAt (v : Variant R) (site : Site) :
    (extensionsAt v.stepIds v.extensions.entries site).Pairwise fun a b => a.1 < b.1 :=
  v.extensions.ascending.filter _

/-- Weaving succeeds just if every hook names a place and no step is replaced twice.  It
gives the layout, which has every extension once, every base step that is not replaced once,
and the base steps in their order.  Extensions at one place stand in the order of their hook
names.  That no extensions are looked at where there are none makes no difference. -/
theorem weave_eq_layout (v : Variant R) :
    (∀ woven, v.weave = .ok woven ↔ v.Weavable ∧ v.layout.map Thread.step = woven) ∧
    (∀ site,
      (extensionsAt v.stepIds v.extensions.entries site).Pairwise fun a b => a.1 < b.1) ∧
    (v.Weavable → Accounts v.steps v.extensions.entries) ∧
    v.weave = v.weaveSlots :=
  ⟨fun _ => Variant.weave_eq_ok_iff, pairwise_extensionsAt v, accounts_of_weavable,
    v.weave_eq_weaveSlots⟩

end

example : (layout [Step.hook (R := String) "save"]
      [("after_save", .hook "log"), ("beforeSave", .hook "audit"),
        ("before_save", .hook "check")]).map (·.step.id) =
    ["audit", "check", "save", "log"] := by
  decide

end StepWeave

import Mathlib.Data.List.Pairwise
import StepWeave.Proofs.Weave.Layout

/-!
# Filling the slots

While the extensions are attached one after the other, the slots hold those parts of the
layout that the extensions so far make up (`attachAll_slots_eq_ok_iff`).  So the woven
sequence is the layout, and it exists just if every hook names a place and none is contested
(`weave_eq_ok_iff`).
-/

namespace StepWeave

open Layout

variable [Types] {R : Type}

/-- Two extensions that replace the same step. -/
def Rivals (ids : List String) (a b : String × Step R) : Prop :=
  ∃ index, Replaces ids a index ∧ Replaces ids b index

theorem Rivals.symm {ids : List String} {a b : String × Step R} (h : Rivals ids a b) :
    Rivals ids b a := by
  obtain ⟨index, ha, hb⟩ := h
  exact ⟨index, hb, ha⟩

/-- The slot of a base step once the extensions are attached. -/
def slotOf (ids : List String) (extensions : List (String × Step R)) (index : Nat)
    (base : Step R) : Slot R where
  base
  before := (extensionsAt ids extensions ⟨index, .before⟩).map Prod.snd
  replacement := (extensionsAt ids extensions ⟨index, .replace⟩).head?
  after := (extensionsAt ids extensions ⟨index, .after⟩).map Prod.snd

def slots (steps : List (Step R)) (extensions : List (String × Step R)) : List (Slot R) :=
  steps.mapIdx (slotOf (steps.map (·.id)) extensions)

section

variable {ids : List String} {steps : List (Step R)} {extensions done : List (String × Step R)}
  {e : String × Step R}

theorem steps_slotOf (index : Nat) (base : Step R) :
    (slotOf ids extensions index base).steps =
      (strand ids extensions index base).map Thread.step := by
  have hcenter : (slotOf ids extensions index base).center =
      (Layout.center ids extensions index base).step := by
    unfold Layout.center Slot.center slotOf
    cases extensionsAt ids extensions ⟨index, .replace⟩ with
    | nil => rfl
    | cons e rest => rfl
  rw [Slot.steps, hcenter, strand, List.map_append, List.map_cons, List.map_map, List.map_map]
  rfl

theorem steps_slots :
    (slots steps extensions).flatMap Slot.steps =
      (layout steps extensions).map Thread.step := by
  rw [List.flatMap_def, slots, map_mapIdx, layout, List.map_flatten, map_mapIdx]
  exact congrArg (fun f => (steps.mapIdx f).flatten)
    (funext fun index => funext fun base => steps_slotOf index base)

theorem slots_nil : slots steps [] = steps.map fun base => { base } := by
  apply List.ext_getElem?
  intro index
  rw [slots, List.getElem?_mapIdx, List.getElem?_map]
  rfl

/-! ## Attaching -/

theorem slotOf_concat_of_ne {index : Nat} {site : Site} (h : Hook.locate e.1 ids = some site)
    (hne : index ≠ site.index) (done : List (String × Step R)) (base : Step R) :
    slotOf ids (done ++ [e]) index base = slotOf ids done index base := by
  have helsewhere (placement : Placement) :
      extensionsAt ids (done ++ [e]) ⟨index, placement⟩ =
        extensionsAt ids done ⟨index, placement⟩ :=
    extensionsAt_concat_of_ne h (fun heq => hne (congrArg Site.index heq)) done
  rw [slotOf, slotOf, helsewhere, helsewhere, helsewhere]

theorem attach_slotOf {index : Nat} {placement : Placement}
    (h : Hook.locate e.1 ids = some ⟨index, placement⟩)
    (hfree : placement = .replace → extensionsAt ids done ⟨index, placement⟩ = [])
    (base : Step R) :
    (slotOf ids done index base).attach e.1 e.2 placement =
      .ok (slotOf ids (done ++ [e]) index base) := by
  have helsewhere (other : Placement) (hother : other ≠ placement) :
      extensionsAt ids (done ++ [e]) ⟨index, other⟩ =
        extensionsAt ids done ⟨index, other⟩ :=
    extensionsAt_concat_of_ne h (fun heq => hother (congrArg Site.placement heq)) done
  have hhere : extensionsAt ids (done ++ [e]) ⟨index, placement⟩ =
      extensionsAt ids done ⟨index, placement⟩ ++ [e] := extensionsAt_middle h done []
  cases placement with
  | before => simp [Slot.attach, slotOf, hhere, helsewhere]
  | after => simp [Slot.attach, slotOf, hhere, helsewhere]
  | replace => simp [Slot.attach, slotOf, hhere, helsewhere, hfree]

theorem attach_slotOf_replaced {index : Nat}
    (h : extensionsAt ids done ⟨index, .replace⟩ ≠ []) (e : String × Step R) (base : Step R) :
    ∃ defect, (slotOf ids done index base).attach e.1 e.2 .replace = .error defect := by
  obtain ⟨earlier, rest, hcons⟩ := List.exists_cons_of_ne_nil h
  refine ⟨.contestedStep earlier.1 e.1 base.id, ?_⟩
  simp [Slot.attach, slotOf, hcons]

theorem forall_not_rivals_iff {site : Site} (h : Hook.locate e.1 ids = some site) :
    (∀ d ∈ done, ¬ Rivals ids d e) ↔
      (site.placement = .replace → extensionsAt ids done site = []) := by
  obtain ⟨index, placement⟩ := site
  rw [extensionsAt_eq_nil_iff]
  constructor
  · rintro hrivals rfl d hd hlocate
    exact hrivals d hd ⟨index, hlocate, h⟩
  · rintro hfree d hd ⟨other, hlocate, hother⟩
    obtain ⟨rfl, rfl⟩ : index = other ∧ placement = .replace := by
      simpa using h.symm.trans hother
    exact hfree rfl d hd hlocate

/-- An extension is attached if its hook names a place and replaces no step that has been
replaced before. -/
theorem attach_slots_eq_ok_iff {after : List (Slot R)} :
    Variant.attach (steps.map (·.id)) (slots steps done) e.1 e.2 = .ok after ↔
      (∃ site, Hook.locate e.1 (steps.map (·.id)) = some site) ∧
        (∀ d ∈ done, ¬ Rivals (steps.map (·.id)) d e) ∧
          slots steps (done ++ [e]) = after := by
  rw [Variant.attach]
  cases hlocate : Hook.locate e.1 (steps.map (·.id)) with
  | none => simp
  | some site =>
      have hlt : site.index < steps.length := by simpa using Hook.index_lt_of_locate hlocate
      have hbase : steps[site.index]? = some steps[site.index] := List.getElem?_eq_getElem hlt
      have hslot : (slots steps done)[site.index]? =
          some (slotOf (steps.map (·.id)) done site.index steps[site.index]) := by
        rw [slots, List.getElem?_mapIdx, hbase]
        rfl
      rw [forall_not_rivals_iff hlocate]
      simp only [hslot]
      by_cases hfree : site.placement = .replace →
          extensionsAt (steps.map (·.id)) done site = []
      · have hset := mapIdx_eq_set hbase fun j hj base =>
          (slotOf_concat_of_ne hlocate hj done base).symm
        rw [attach_slotOf hlocate hfree, slots, slots, hset]
        simp only [Except.ok.injEq]
        exact ⟨fun heq => ⟨⟨site, rfl⟩, hfree, heq⟩, fun h => h.2.2⟩
      · push Not at hfree
        obtain ⟨hreplace, hne⟩ := hfree
        obtain ⟨index, placement⟩ := site
        cases hreplace
        obtain ⟨defect, hdefect⟩ := attach_slotOf_replaced hne e steps[index]
        simp [hdefect, hne]

/-- Extensions are attached up to the end if each hook names a place and none replaces a
step again. -/
theorem attachAll_slots_eq_ok_iff {rest : List (String × Step R)} {after : List (Slot R)}
    (hdone : done.Pairwise fun a b => ¬ Rivals (steps.map (·.id)) a b) :
    Variant.attachAll (steps.map (·.id)) rest (slots steps done) = .ok after ↔
      (∀ e ∈ rest, ∃ site, Hook.locate e.1 (steps.map (·.id)) = some site) ∧
        ((done ++ rest).Pairwise fun a b => ¬ Rivals (steps.map (·.id)) a b) ∧
          slots steps (done ++ rest) = after := by
  induction rest generalizing done with
  | nil => simp [Variant.attachAll, hdone]
  | cons e rest ih =>
      have hsplit : done ++ e :: rest = done ++ [e] ++ rest := by simp
      rw [Variant.attachAll, hsplit]
      cases hattach : Variant.attach (steps.map (·.id)) (slots steps done) e.1 e.2 with
      | error defect =>
          refine iff_of_false (by simp) ?_
          rintro ⟨hlocated, hrivals, -⟩
          have hfree : ∀ d ∈ done, ¬ Rivals (steps.map (·.id)) d e := by
            rw [List.pairwise_append, List.pairwise_append] at hrivals
            simpa using hrivals.1.2.2
          have hok := attach_slots_eq_ok_iff.2 ⟨hlocated _ List.mem_cons_self, hfree, rfl⟩
          cases hattach.symm.trans hok
      | ok middle =>
          obtain ⟨hlocated, hfree, rfl⟩ := attach_slots_eq_ok_iff.1 hattach
          have hnext : (done ++ [e]).Pairwise
              fun a b => ¬ Rivals (steps.map (·.id)) a b := by
            rw [List.pairwise_append]
            exact ⟨hdone, by simp, by simpa using hfree⟩
          simp only [ih hnext, List.forall_mem_cons, hlocated, true_and]

end

/-! ## Weaving -/

namespace Variant

variable {v : Variant R} {woven : List (Step R)}

theorem weavable_iff :
    v.Weavable ↔
      (∀ e ∈ v.extensions.entries, ∃ site, Hook.locate e.1 v.stepIds = some site) ∧
        v.extensions.entries.Pairwise fun a b => ¬ Rivals v.stepIds a b := by
  constructor
  · intro h
    refine ⟨fun e he => h.located e.1 (List.mem_map_of_mem he), ?_⟩
    refine v.extensions.ascending.imp_of_mem fun {a b} ha hb hlt => ?_
    rintro ⟨index, hindex, hother⟩
    have heq := h.uncontested a.1 (List.mem_map_of_mem ha) b.1 (List.mem_map_of_mem hb) index
      hindex hother
    exact String.lt_irrefl b.1 (heq ▸ hlt)
  · rintro ⟨hlocated, hrivals⟩
    refine ⟨?_, ?_⟩
    · intro hook hhook
      obtain ⟨e, he, rfl⟩ := List.mem_map.1 hhook
      exact hlocated e he
    · intro hook hhook other hother index hindex hindex'
      obtain ⟨a, ha, rfl⟩ := List.mem_map.1 hhook
      obtain ⟨b, hb, rfl⟩ := List.mem_map.1 hother
      have : Std.Symm fun a b : String × Step R => ¬ Rivals v.stepIds a b :=
        ⟨fun _ _ hab hba => hab hba.symm⟩
      by_contra hne
      exact hrivals.forall ha hb (fun heq => hne (congrArg Prod.fst heq)) ⟨index, hindex, hindex'⟩

theorem weaveSlots_eq_ok_iff :
    v.weaveSlots = .ok woven ↔ v.Weavable ∧ v.layout.map Thread.step = woven := by
  have hattach (after : List (Slot R)) :=
    @attachAll_slots_eq_ok_iff _ R v.steps [] v.extensions.entries after .nil
  rw [slots_nil, List.nil_append] at hattach
  rw [weaveSlots, weavable_iff, Variant.layout, ← steps_slots, and_assoc]
  constructor
  · intro h
    split at h
    · cases h
    next after hall =>
      obtain ⟨hlocated, hrivals, rfl⟩ := (hattach after).1 hall
      exact ⟨hlocated, hrivals, Except.ok.inj h⟩
  · rintro ⟨hlocated, hrivals, rfl⟩
    have hall := (hattach _).2 ⟨hlocated, hrivals, rfl⟩
    rw [stepIds, hall]

/-- Without extensions there is nothing to weave in. -/
theorem weave_eq_weaveSlots (v : Variant R) : v.weave = v.weaveSlots := by
  rw [weave]
  split
  next hempty =>
    have hentries : v.extensions.entries = [] := List.isEmpty_iff.1 hempty
    have hsteps : (v.steps.map fun base : Step R => ({ base } : Slot R)).flatMap Slot.steps =
        v.steps := by
      rw [List.flatMap_map]
      exact List.flatMap_singleton' v.steps
    rw [weaveSlots, hentries, attachAll]
    exact congrArg Except.ok hsteps.symm
  · rfl

/-- Weaving gives the steps of the layout, provided that every hook names a place and no
step is replaced twice. -/
theorem weave_eq_ok_iff :
    v.weave = .ok woven ↔ v.Weavable ∧ v.layout.map Thread.step = woven := by
  rw [weave_eq_weaveSlots, weaveSlots_eq_ok_iff]

theorem invalid_of_weave {failure : Failure} (h : v.weave = .error failure) :
    ∃ defect, failure = v.invalid defect := by
  rw [weave_eq_weaveSlots, weaveSlots] at h
  split at h
  next defect _ =>
    cases h
    exact ⟨defect, rfl⟩
  · cases h

theorem weave_of_not_weavable (h : ¬ v.Weavable) :
    ∃ defect, v.weave = .error (v.invalid defect) := by
  cases hweave : v.weave with
  | error failure =>
      obtain ⟨defect, rfl⟩ := invalid_of_weave hweave
      exact ⟨defect, rfl⟩
  | ok woven => exact absurd (weave_eq_ok_iff.1 hweave).1 h

end Variant

end StepWeave

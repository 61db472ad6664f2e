import StepWeave.Proofs.Plan.Partition
import StepWeave.Proofs.Registry.History

/-!
# Room for a variant

A registry has room for a variant if its name is not bound to another response type and
its layer is not taken (`Registry.HasRoom`).  Then registering it succeeds just when it can
be run, and all that it can be refused for is a defect of its own.
-/

namespace StepWeave

variable [Types]

/-! ## Variants that cannot be run -/

section

variable {R : Type} {v : Variant R} {failure : Failure}

/-- What registration asks of a variant whose delegate is written out. -/
structure Variant.Runnable (v : Variant R) : Prop where
  nodup : v.stepIds.Nodup
  planned : ∃ plan, Plan.build v = .ok plan

@[simp] theorem Variant.invalid_flatten (v : Variant R) (defect : Defect) :
    v.flatten.invalid defect = v.invalid defect := by
  rw [invalid, invalid, name_flatten, layer_flatten]

/-- A variant without interceptors only has to be woven. -/
theorem Variant.Runnable.of_weave {woven : List (Step R)} (hids : v.stepIds.Nodup)
    (hnone : v.interceptors = []) (hweave : v.weave = .ok woven) : v.Runnable where
  nodup := hids
  planned := ⟨_, Plan.build_of_interceptors_nil hweave hnone⟩

end

namespace Registry

variable {type : TypeTag} {v flat : Variant type.Carrier} {r : Registry}
  {held : List (Variant type.Carrier)} {name : String} {layer : Option String}

/-! ## Registering where there is room -/

/-- The name can take variants for the response type, and has none for the layer yet. -/
def HasRoom (r : Registry) (type : TypeTag) (name : String) (layer : Option String) : Prop :=
  ∃ held, r.Holds type name held ∧ ∀ w ∈ held, w.layer ≠ layer

theorem hasRoom_of_unbound (h : r.entries.find? name = none) : r.HasRoom type name layer :=
  ⟨[], .inl ⟨h, rfl⟩, by simp⟩

theorem Holds.unique {held' : List (Variant type.Carrier)} (h : r.Holds type name held)
    (h' : r.Holds type name held') : held = held' := by
  obtain ⟨hnone, rfl⟩ | hsome := h
  · obtain ⟨-, rfl⟩ | hsome' := h'
    · rfl
    · rw [hnone] at hsome'
      contradiction
  · obtain ⟨hnone, -⟩ | hsome' := h'
    · rw [hsome] at hnone
      contradiction
    · rw [hsome] at hsome'
      cases hsome'
      rfl

theorem find?_add (listing : Listing) :
    (r.add type held flat listing).entries.find? flat.name = some ⟨type, held ++ [flat]⟩ := by
  rw [add, Keyed.find?_insert, if_pos rfl]

/-- A new variant takes no room but that for its own name and layer. -/
theorem HasRoom.add (h : r.HasRoom type name layer) (hheld : r.Holds type flat.name held)
    (hne : flat.name = name → flat.layer ≠ layer) (listing : Listing) :
    (r.add type held flat listing).HasRoom type name layer := by
  obtain ⟨held', hheld', hlayer⟩ := h
  by_cases hname : flat.name = name
  · subst hname
    obtain rfl := hheld.unique hheld'
    refine ⟨held ++ [flat], .inr (find?_add listing), ?_⟩
    intro w hw
    obtain hw | hw := List.mem_append.1 hw
    · exact hlayer w hw
    · rw [List.mem_singleton.1 hw]
      exact hne rfl
  · exact ⟨held', (holds_add_of_ne hname).2 hheld', hlayer⟩

theorem resolve_add (hlayer : ∀ w ∈ held, w.layer ≠ flat.layer) (listing : Listing) :
    (r.add type held flat listing).resolve type flat.name flat.layer = .ok flat := by
  have hfind : held.find? (·.layer = flat.layer) = none := by simpa using hlayer
  rw [resolve_of_bound (find?_add listing), List.find?_append, hfind]
  simp

/-- A variant that was registered is found under its own name and layer. -/
theorem resolve_register (h : (register type v r).1 = .ok ()) :
    (register type v r).2.resolve type v.name v.layer = .ok v.flatten := by
  obtain ⟨failure, heq⟩ | ⟨plan, held, -, -, -, hlayer, heq⟩ := register_cases type v r
  · rw [heq] at h
    cases h
  · have hresolve : (r.add type held v.flatten (.of v v.flatten plan type.name)).resolve type
        v.flatten.name v.flatten.layer = .ok v.flatten := resolve_add hlayer _
    rw [v.name_flatten, v.layer_flatten] at hresolve
    rw [heq]
    exact hresolve

theorem register_of_room {plan : Plan type.Carrier} (hids : v.flatten.stepIds.Nodup)
    (hplan : Plan.build v.flatten = .ok plan) (hroom : r.HasRoom type v.name v.layer) :
    ∃ held, r.Holds type v.flatten.name held ∧ (∀ w ∈ held, w.layer ≠ v.flatten.layer) ∧
      register type v r =
        (.ok (), r.add type held v.flatten (.of v v.flatten plan type.name)) := by
  obtain ⟨held, hheld, hlayer⟩ := hroom
  rw [← v.name_flatten] at hheld
  rw [← v.layer_flatten] at hlayer
  refine ⟨held, hheld, hlayer, ?_⟩
  rw [register_of_build hids hplan, store_of_room hheld hlayer]

theorem register_of_not_runnable (h : ¬v.flatten.Runnable) :
    ∃ defect, register type v r = (.error (v.invalid defect), r) := by
  by_cases hids : v.flatten.stepIds.Nodup
  · cases hplan : Plan.build v.flatten with
    | ok plan => exact absurd ⟨hids, plan, hplan⟩ h
    | error failure =>
        obtain ⟨defect, rfl⟩ := Plan.invalid_of_build hplan
        rw [v.invalid_flatten] at hplan
        exact ⟨defect, register_of_build_error hids hplan⟩
  · have hrepeat : ∃ id, Variant.firstRepeat? v.flatten.stepIds = some id := by
      rwa [← Option.ne_none_iff_exists', ne_eq, Variant.firstRepeat?_eq_none_iff_nodup]
    obtain ⟨id, hid⟩ := hrepeat
    exact ⟨.duplicateStep id, by simp [register, Variant.checkIds, hid]⟩

end Registry

end StepWeave

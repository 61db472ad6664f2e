import Mathlib.Data.List.Forall2
import Mathlib.Data.List.Induction
import StepWeave.Proofs.Keys
import StepWeave.Registry

/-!
# Registries by their history

What a registration does to a registry (`Registry.register_cases`), and what holds
of every registry that registrations lead to, whether they succeed or fail: the
variants of a name are runnable and stand in line with the listings of that name
(`Registry.consistent_ofHistory`).
-/

namespace StepWeave

/-! ## Names and layers -/

/-- What differs in the layer within each name differs in name or layer. -/
theorem Registry.pairwise_key_of_filter {α : Type*} {name : α → String} {layer : α → Option String}
    {l : List α} (h : ∀ n, (l.filter (name · = n)).Pairwise fun a b => layer a ≠ layer b) :
    l.Pairwise fun a b => (name a, layer a) ≠ (name b, layer b) := by
  induction l with
  | nil => exact .nil
  | cons a rest ih =>
      rw [List.pairwise_cons]
      constructor
      · intro b hb heq
        obtain ⟨hname, hlayer⟩ := Prod.mk.inj heq
        have ha := h (name a)
        rw [List.filter_cons_of_pos (by simp), List.pairwise_cons] at ha
        exact ha.1 b (List.mem_filter.2 ⟨hb, by simp [hname]⟩) hlayer
      · apply ih
        intro n
        have hrest := h n
        rw [List.filter_cons] at hrest
        split at hrest
        · exact (List.pairwise_cons.1 hrest).2
        · exact hrest

/-! ## Checks of a variant -/

namespace Variant

theorem firstRepeat?_eq_none_iff {ids seen : List String} :
    firstRepeat? ids seen = none ↔ Fresh id seen ids := by
  induction ids generalizing seen with
  | nil => exact iff_of_true rfl fresh_nil
  | cons first rest ih =>
      rw [firstRepeat?, fresh_cons, ← ih, id_eq]
      by_cases hseen : first ∈ seen <;> simp [hseen]

theorem firstRepeat?_eq_none_iff_nodup {ids : List String} :
    firstRepeat? ids = none ↔ ids.Nodup := by
  rw [firstRepeat?_eq_none_iff, fresh_nil_seen, List.map_id]

variable [Types] {R : Type} {v : Variant R}

theorem flatten_of_none (h : v.delegate = none) : v.flatten = v := by
  unfold flatten
  rw [h]

@[simp] theorem delegate_flatten (v : Variant R) : v.flatten.delegate = none := by
  unfold flatten
  split
  · assumption
  · rfl

@[simp] theorem name_flatten (v : Variant R) : v.flatten.name = v.name := by
  unfold flatten
  split <;> rfl

@[simp] theorem layer_flatten (v : Variant R) : v.flatten.layer = v.layer := by
  unfold flatten
  split <;> rfl

theorem checkIds_eq_ok_iff : v.checkIds = .ok () ↔ v.stepIds.Nodup := by
  have h := @firstRepeat?_eq_none_iff_nodup v.stepIds
  unfold checkIds
  cases hrepeat : firstRepeat? v.stepIds with
  | none => simpa [hrepeat] using h
  | some id => simpa [hrepeat] using h

end Variant

variable [Types]

namespace Registry

/-! ## One registration -/

variable {type : TypeTag}

/-- `held` are the variants that `r` holds under a name for the response type. -/
def Holds (r : Registry) (type : TypeTag) (name : String)
    (held : List (Variant type.Carrier)) : Prop :=
  (r.entries.find? name = none ∧ held = []) ∨ r.entries.find? name = some ⟨type, held⟩

def add (r : Registry) (type : TypeTag) (held : List (Variant type.Carrier))
    (flat : Variant type.Carrier) (listing : Listing) : Registry where
  entries := r.entries.insert flat.name ⟨type, held ++ [flat]⟩
  listings := r.listings ++ [listing]

theorem enter_of_bound {name : String} {entry : Entry} {r : Registry}
    (h : r.entries.find? name = some entry) (type : TypeTag) :
    r.enter type name = (entry, r) := by
  rw [enter, h]

theorem enter_of_unbound {name : String} {r : Registry} (h : r.entries.find? name = none)
    (type : TypeTag) :
    r.enter type name = ({ type }, { r with entries := r.entries.insert name { type } }) := by
  rw [enter, h]

theorem store_of_room {flat : Variant type.Carrier} {r : Registry}
    {held : List (Variant type.Carrier)} (hheld : r.Holds type flat.name held)
    (hlayer : ∀ w ∈ held, w.layer ≠ flat.layer) (listing : Listing) :
    store type flat listing r = (.ok (), r.add type held flat listing) := by
  obtain ⟨hnone, rfl⟩ | hsome := hheld
  · unfold store
    rw [enter_of_unbound hnone]
    simp [Keyed.insert_insert, add]
  · have hany : ¬held.any (·.layer = flat.layer) = true := by simpa using hlayer
    unfold store
    rw [enter_of_bound hsome]
    simp [hany, add]

theorem store_of_taken {flat : Variant type.Carrier} {r : Registry}
    {held : List (Variant type.Carrier)} (hheld : r.entries.find? flat.name = some ⟨type, held⟩)
    (hlayer : ∃ w ∈ held, w.layer = flat.layer) (listing : Listing) :
    store type flat listing r = (.error (.duplicatePipeline flat.name flat.layer), r) := by
  have hany : held.any (·.layer = flat.layer) = true := by simpa using hlayer
  unfold store
  rw [enter_of_bound hheld]
  simp [hany]

theorem store_of_ne {flat : Variant type.Carrier} {r : Registry} {entry : Entry}
    (hentry : r.entries.find? flat.name = some entry) (hne : type ≠ entry.type)
    (listing : Listing) :
    store type flat listing r =
      (.error (.wrongResponseType flat.name entry.type.name type.name), r) := by
  unfold store
  rw [enter_of_bound hentry]
  simp [hne]

/-- An entry that is made on the way is never left behind empty: a new name has the right type
and no variants, so that nothing is refused there. -/
theorem store_cases (type : TypeTag) (flat : Variant type.Carrier) (listing : Listing)
    (r : Registry) :
    (∃ failure, store type flat listing r = (.error failure, r)) ∨
    ∃ held, r.Holds type flat.name held ∧ (∀ w ∈ held, w.layer ≠ flat.layer) ∧
      store type flat listing r = (.ok (), r.add type held flat listing) := by
  cases hentry : r.entries.find? flat.name with
  | none =>
      have hheld : r.Holds type flat.name [] := .inl ⟨hentry, rfl⟩
      exact .inr ⟨[], hheld, by simp, store_of_room hheld (by simp) listing⟩
  | some entry =>
      obtain ⟨type', held⟩ := entry
      by_cases htype : type = type'
      · subst htype
        by_cases hany : ∃ w ∈ held, w.layer = flat.layer
        · exact .inl ⟨_, store_of_taken hentry hany listing⟩
        · have hlayer : ∀ w ∈ held, w.layer ≠ flat.layer := by simpa using hany
          exact .inr ⟨held, .inr hentry, hlayer, store_of_room (.inr hentry) hlayer listing⟩
      · exact .inl ⟨_, store_of_ne hentry htype listing⟩

theorem register_of_build {v : Variant type.Carrier} {r : Registry} {plan : Plan type.Carrier}
    (hids : v.flatten.stepIds.Nodup) (hplan : Plan.build v.flatten = .ok plan) :
    register type v r = store type v.flatten (.of v v.flatten plan type.name) r := by
  simp only [register, Variant.checkIds_eq_ok_iff.2 hids, hplan]

theorem register_of_build_error {v : Variant type.Carrier} {r : Registry} {failure : Failure}
    (hids : v.flatten.stepIds.Nodup) (hplan : Plan.build v.flatten = .error failure) :
    register type v r = (.error failure, r) := by
  simp only [register, Variant.checkIds_eq_ok_iff.2 hids, hplan]

/-- A registration fails and changes nothing, or it adds the flattened variant, which is
runnable and for a new layer, at the end of its name. -/
theorem register_cases (type : TypeTag) (v : Variant type.Carrier) (r : Registry) :
    (∃ failure, register type v r = (.error failure, r)) ∨
    ∃ plan held, v.flatten.stepIds.Nodup ∧ Plan.build v.flatten = .ok plan ∧
      r.Holds type v.flatten.name held ∧ (∀ w ∈ held, w.layer ≠ v.flatten.layer) ∧
      register type v r =
        (.ok (), r.add type held v.flatten (.of v v.flatten plan type.name)) := by
  cases hcheck : v.flatten.checkIds with
  | error failure => exact .inl ⟨failure, by simp [register, hcheck]⟩
  | ok =>
      have hids := Variant.checkIds_eq_ok_iff.1 hcheck
      cases hplan : Plan.build v.flatten with
      | error failure => exact .inl ⟨failure, register_of_build_error hids hplan⟩
      | ok plan =>
          rw [register_of_build hids hplan]
          obtain h | ⟨held, hheld, hlayer, hstore⟩ := store_cases type v.flatten _ r
          · exact .inl h
          · exact .inr ⟨plan, held, hids, rfl, hheld, hlayer, hstore⟩

/-! ## Histories -/

structure Registration where
  type : TypeTag
  variant : Variant type.Carrier

/-- The registry that registrations lead to, whether they succeed or not. -/
def ofHistory (history : List Registration) : Registry :=
  history.foldl (fun r g => (register g.type g.variant r).2) .empty

theorem ofHistory_concat (history : List Registration) (g : Registration) :
    ofHistory (history ++ [g]) = (register g.type g.variant (ofHistory history)).2 := by
  rw [ofHistory, List.foldl_append]
  rfl

theorem ofHistory_induction {P : Registry → Prop} (hempty : P .empty)
    (hregister : ∀ r type (v : Variant type.Carrier), P r → P (register type v r).2)
    (history : List Registration) : P (ofHistory history) := by
  induction history using List.reverseRecOn with
  | nil => exact hempty
  | append_singleton history g ih =>
      rw [ofHistory_concat]
      exact hregister _ g.type g.variant ih

end Registry

/-! ## Variants and their listings -/

/-- A stored variant, which is runnable, and the listing that shows it. -/
structure Listing.Describes {type : TypeTag} (l : Listing) (v : Variant type.Carrier) : Prop where
  delegate : v.delegate = none
  nodup : v.stepIds.Nodup
  name : l.name = v.name
  layer : l.layer = v.layer
  steps : ∃ plan, Plan.build v = .ok plan ∧ l.steps = plan.stepIds
  hooks : l.hooks = v.extensions.keys
  interceptors : l.interceptors = v.interceptors.map (·.id)
  responseType : l.responseType = type.name

theorem Listing.describes_of {type : TypeTag} {v : Variant type.Carrier}
    {plan : Plan type.Carrier} (hids : v.flatten.stepIds.Nodup)
    (hplan : Plan.build v.flatten = .ok plan) :
    (Listing.of v v.flatten plan type.name).Describes v.flatten where
  delegate := v.delegate_flatten
  nodup := hids
  name := rfl
  layer := rfl
  steps := ⟨plan, hplan, rfl⟩
  hooks := rfl
  interceptors := rfl
  responseType := rfl

namespace Registry

def listingsOf (r : Registry) (name : String) : List Listing :=
  r.listings.filter (·.name = name)

structure Consistent (r : Registry) : Prop where
  /-- A name without an entry is not listed. -/
  unlisted : ∀ name, r.entries.find? name = none → r.listingsOf name = []
  /-- The variants of a name are those that its listings describe. -/
  described : ∀ name type held, r.Holds type name held →
    List.Forall₂ Listing.Describes (r.listingsOf name) held
  /-- A name has at most one variant for a layer. -/
  layers : ∀ name type held, r.Holds type name held →
    held.Pairwise fun v w => v.layer ≠ w.layer

section

variable {r : Registry} {type : TypeTag} {held : List (Variant type.Carrier)}
  {flat : Variant type.Carrier} {listing : Listing}

theorem holds_add_of_ne {name : String} (h : flat.name ≠ name) {type' : TypeTag}
    {held' : List (Variant type'.Carrier)} :
    (r.add type held flat listing).Holds type' name held' ↔ r.Holds type' name held' := by
  rw [Holds, Holds, add, Keyed.find?_insert, if_neg h]

theorem eq_of_holds_add {type' : TypeTag} {held' : List (Variant type'.Carrier)}
    (h : (r.add type held flat listing).Holds type' flat.name held') :
    (⟨type, held ++ [flat]⟩ : Entry) = ⟨type', held'⟩ := by
  rw [Holds, add, Keyed.find?_insert, if_pos rfl] at h
  obtain ⟨hnone, -⟩ | hsome := h
  · contradiction
  · exact Option.some.inj hsome

theorem listingsOf_add (name : String) :
    (r.add type held flat listing).listingsOf name =
      r.listingsOf name ++ if listing.name = name then [listing] else [] := by
  rw [listingsOf, add, List.filter_append, listingsOf, List.filter_singleton]
  simp

theorem Consistent.add (h : r.Consistent) (hheld : r.Holds type flat.name held)
    (hlayer : ∀ w ∈ held, w.layer ≠ flat.layer) (hlisting : listing.Describes flat) :
    (r.add type held flat listing).Consistent where
  unlisted name hname := by
    rw [Registry.add, Keyed.find?_insert] at hname
    split at hname
    · contradiction
    next hne =>
      rw [listingsOf_add, hlisting.name, if_neg hne, List.append_nil]
      exact h.unlisted name hname
  described name type' held' hheld' := by
    rw [listingsOf_add, hlisting.name]
    by_cases hname : flat.name = name
    · subst hname
      cases eq_of_holds_add hheld'
      rw [if_pos rfl]
      exact List.rel_append (h.described _ _ _ hheld) (.cons hlisting .nil)
    · rw [if_neg hname, List.append_nil]
      exact h.described name type' held' ((holds_add_of_ne hname).1 hheld')
  layers name type' held' hheld' := by
    by_cases hname : flat.name = name
    · subst hname
      cases eq_of_holds_add hheld'
      rw [List.pairwise_append]
      refine ⟨h.layers _ _ _ hheld, by simp, ?_⟩
      intro w hw v hv
      rw [List.mem_singleton.1 hv]
      exact hlayer w hw
    · exact h.layers name type' held' ((holds_add_of_ne hname).1 hheld')

end

theorem consistent_empty : Registry.empty.Consistent where
  unlisted _ _ := rfl
  described name type held hheld := by
    obtain ⟨-, rfl⟩ | hsome := hheld
    · exact .nil
    · cases hsome
  layers name type held hheld := by
    obtain ⟨-, rfl⟩ | hsome := hheld
    · exact .nil
    · cases hsome

theorem Consistent.register {r : Registry} (h : r.Consistent) (type : TypeTag)
    (v : Variant type.Carrier) : (register type v r).2.Consistent := by
  obtain ⟨failure, heq⟩ | ⟨plan, held, hids, hplan, hheld, hlayer, heq⟩ :=
    register_cases type v r
  · rw [heq]
    exact h
  · rw [heq]
    exact h.add hheld hlayer (Listing.describes_of hids hplan)

theorem consistent_ofHistory (history : List Registration) : (ofHistory history).Consistent :=
  ofHistory_induction consistent_empty (fun _ type v h => h.register type v) history

/-! ## Looking up -/

theorem variants_ok {r : Registry} {type : TypeTag} {name : String} {layer : Option String}
    {held : List (Variant type.Carrier)} (h : r.variants type name layer = .ok held) :
    r.Holds type name held := by
  unfold variants at h
  split at h
  · cases h
  · next entry hentry =>
    obtain ⟨type', held'⟩ := entry
    split at h
    · next htype =>
      cases htype
      cases h
      exact .inr hentry
    · cases h

section

variable {r : Registry} {type : TypeTag} {name : String} {layer : Option String}

theorem resolve_of_unbound (h : r.entries.find? name = none) :
    r.resolve type name layer = .error (.unknownPipeline name layer) := by
  simp [resolve, variants, h]

theorem resolve_of_ne {entry : Entry} (h : r.entries.find? name = some entry)
    (htype : entry.type ≠ type) :
    r.resolve type name layer = .error (.wrongResponseType name entry.type.name type.name) := by
  simp [resolve, variants, h, htype]

theorem resolve_of_bound {held : List (Variant type.Carrier)}
    (h : r.entries.find? name = some ⟨type, held⟩) :
    r.resolve type name layer =
      match (held.find? (·.layer = layer)).or (held.find? (·.layer = none)) with
      | some v => .ok v
      | none => .error (.unknownPipeline name layer) := by
  have hvariants : r.variants type name layer = .ok held := by simp [variants, h]
  cases hfind : (held.find? (·.layer = layer)).or (held.find? (·.layer = none)) <;>
    simp [resolve, hvariants, hfind]

end

theorem resolve_ok {r : Registry} {type : TypeTag} {name : String} {layer : Option String}
    {v : Variant type.Carrier} (h : r.resolve type name layer = .ok v) :
    ∃ held, r.Holds type name held ∧ v ∈ held ∧ (v.layer = layer ∨ v.layer = none) := by
  unfold resolve at h
  split at h
  · cases h
  · next held hheld =>
    split at h
    · next v' hfind =>
      cases h
      refine ⟨held, variants_ok hheld, ?_⟩
      obtain hlayer | ⟨-, hdefault⟩ := Option.or_eq_some_iff.1 hfind
      · exact ⟨List.mem_of_find?_eq_some hlayer, .inl (by simpa using List.find?_some hlayer)⟩
      · exact ⟨List.mem_of_find?_eq_some hdefault,
          .inr (by simpa using List.find?_some hdefault)⟩
    · cases h

end Registry

end StepWeave

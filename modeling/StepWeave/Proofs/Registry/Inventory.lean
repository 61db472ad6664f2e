import StepWeave.Proofs.Lists
import StepWeave.Proofs.Registry.History

/-!
# What a registry stores and what it lists

A registry keeps its variants twice: by name, to be found, and as one sequence of
listings, to be shown.  The two tell the same after every sequence of registrations
(`Registry.Inventory`).
-/

namespace StepWeave

variable [Types]

namespace Registry

/-- No name is bound without a variant. -/
def Occupied (r : Registry) : Prop :=
  ∀ name entry, r.entries.find? name = some entry → entry.variants ≠ []

/-- The number of variants stored under all names. -/
def stored (r : Registry) : Nat := r.entries.total fun entry => entry.variants.length

/-- The listings of a registry show just what it stores. -/
structure Inventory (r : Registry) : Prop where
  /-- The variants of a name are, in order, those that its listings describe. -/
  described : ∀ name entry, r.entries.find? name = some entry →
    List.Forall₂ Listing.Describes (r.listingsOf name) entry.variants
  unbound : ∀ name, r.entries.find? name = none → r.listingsOf name = []
  occupied : r.Occupied
  /-- A name and a layer have at most one listing. -/
  distinct : r.listings.Pairwise fun l l' => (l.name, l.layer) ≠ (l'.name, l'.layer)
  /-- The listings of a name show the response type that the name is bound to. -/
  responseType : ∀ l ∈ r.listings, ∃ entry,
    r.entries.find? l.name = some entry ∧ l.responseType = entry.type.name
  names_ascending : r.names.Pairwise (· < ·)
  mem_names : ∀ name, name ∈ r.names ↔ ∃ l ∈ r.listings, l.name = name
  contains_iff : ∀ name, r.contains name = true ↔ name ∈ r.names
  size_eq : r.size = r.stored
  isEmpty_iff : r.isEmpty = true ↔ r.stored = 0

/-! ## Names with variants -/

theorem occupied_register {r : Registry} (h : r.Occupied) (type : TypeTag)
    (v : Variant type.Carrier) : (register type v r).2.Occupied := by
  obtain ⟨failure, heq⟩ | ⟨plan, held, -, -, -, -, heq⟩ := register_cases type v r
  · rw [heq]
    exact h
  · rw [heq]
    intro name entry hentry
    simp only [add, Keyed.find?_insert] at hentry
    split at hentry
    · cases hentry
      simp
    · exact h name entry hentry

theorem occupied_ofHistory (history : List Registration) : (ofHistory history).Occupied :=
  ofHistory_induction (P := Occupied) (fun _ _ hentry => nomatch hentry)
    (fun _ type v h => occupied_register h type v) history

/-! ## Counting -/

theorem stored_add {r : Registry} {type : TypeTag} {held : List (Variant type.Carrier)}
    {flat : Variant type.Carrier} (hheld : r.Holds type flat.name held) (listing : Listing) :
    (r.add type held flat listing).stored = r.stored + 1 := by
  have htotal := r.entries.total_insert (fun entry => entry.variants.length) flat.name
    ⟨type, held ++ [flat]⟩
  rw [List.length_append, List.length_singleton] at htotal
  have hbefore : ((r.entries.find? flat.name).map fun entry => entry.variants.length).getD 0 =
      held.length := by
    obtain ⟨hnone, rfl⟩ | hsome := hheld
    · rw [hnone]
      rfl
    · rw [hsome]
      rfl
  rw [hbefore] at htotal
  show (r.entries.insert flat.name _).total _ = r.entries.total _ + 1
  omega

theorem size_register {r : Registry} (h : r.size = r.stored) (type : TypeTag)
    (v : Variant type.Carrier) : (register type v r).2.size = (register type v r).2.stored := by
  obtain ⟨failure, heq⟩ | ⟨plan, held, -, -, hheld, -, heq⟩ := register_cases type v r
  · rw [heq]
    exact h
  · rw [heq, stored_add hheld, ← h, size, add, List.length_append, List.length_singleton]
    rfl

theorem size_ofHistory (history : List Registration) :
    (ofHistory history).size = (ofHistory history).stored :=
  ofHistory_induction (P := fun r => r.size = r.stored) rfl
    (fun _ type v h => size_register h type v) history

/-! ## Listings by name -/

theorem pairwise_layer_of_describes {type : TypeTag} {listings : List Listing}
    {held : List (Variant type.Carrier)} (h : List.Forall₂ Listing.Describes listings held)
    (hlayers : held.Pairwise fun v w => v.layer ≠ w.layer) :
    listings.Pairwise fun l l' => l.layer ≠ l'.layer := by
  induction h with
  | nil => exact .nil
  | @cons l v listings held hv hrest ih =>
      rw [List.pairwise_cons] at hlayers ⊢
      refine ⟨fun l' hl' => ?_, ih hlayers.2⟩
      obtain ⟨w, hw, hdescribes⟩ := exists_of_mem_forall₂ hrest hl'
      rw [hv.layer, hdescribes.layer]
      exact hlayers.1 w hw

theorem mem_listingsOf {r : Registry} {name : String} {l : Listing} :
    l ∈ r.listingsOf name ↔ l ∈ r.listings ∧ l.name = name := by
  rw [listingsOf, List.mem_filter, decide_eq_true_eq]

section

variable {r : Registry} (h : r.Consistent)
include h

theorem Consistent.distinct :
    r.listings.Pairwise fun l l' => (l.name, l.layer) ≠ (l'.name, l'.layer) := by
  refine pairwise_key_of_filter fun name => ?_
  cases hentry : r.entries.find? name with
  | none =>
      have hnil : r.listings.filter (·.name = name) = [] := h.unlisted name hentry
      rw [hnil]
      exact .nil
  | some entry =>
      exact pairwise_layer_of_describes (h.described name _ _ (.inr hentry))
        (h.layers name _ _ (.inr hentry))

theorem Consistent.entry_of_listing {l : Listing} (hl : l ∈ r.listings) :
    ∃ entry, r.entries.find? l.name = some entry ∧ l.responseType = entry.type.name := by
  have hmem : l ∈ r.listingsOf l.name := mem_listingsOf.2 ⟨hl, rfl⟩
  cases hentry : r.entries.find? l.name with
  | none =>
      rw [h.unlisted l.name hentry] at hmem
      contradiction
  | some entry =>
      obtain ⟨v, -, hv⟩ := exists_of_mem_forall₂ (h.described l.name _ _ (.inr hentry)) hmem
      exact ⟨entry, rfl, hv.responseType⟩

theorem Consistent.mem_names (hoccupied : r.Occupied) (name : String) :
    name ∈ r.names ↔ ∃ l ∈ r.listings, l.name = name := by
  rw [names, Keyed.mem_keys_iff]
  constructor
  · rintro ⟨entry, hentry⟩
    have hdescribed := h.described name _ _ (.inr hentry)
    have hlength := hdescribed.length_eq
    obtain ⟨v, hv⟩ := List.exists_mem_of_ne_nil _ (hoccupied name entry hentry)
    obtain ⟨l, hl⟩ := List.exists_mem_of_length_pos (hlength ▸ List.length_pos_of_mem hv)
    exact ⟨l, mem_listingsOf.1 hl⟩
  · rintro ⟨l, hl, rfl⟩
    obtain ⟨entry, hentry, -⟩ := h.entry_of_listing hl
    exact ⟨entry, hentry⟩

end

/-! ## Registries that registrations lead to -/

/-- After any registrations, failed ones among them, the listings show what is stored. -/
theorem inventory_ofHistory (history : List Registration) : (ofHistory history).Inventory := by
  have hconsistent := consistent_ofHistory history
  have hoccupied := occupied_ofHistory history
  have hsize := size_ofHistory history
  exact {
    described := fun name entry hentry => hconsistent.described name _ _ (.inr hentry)
    unbound := hconsistent.unlisted
    occupied := hoccupied
    distinct := hconsistent.distinct
    responseType := fun l hl => hconsistent.entry_of_listing hl
    names_ascending := (ofHistory history).entries.pairwise_keys
    mem_names := hconsistent.mem_names hoccupied
    contains_iff := (ofHistory history).entries.contains_iff
    size_eq := hsize
    isEmpty_iff := by
      rw [← hsize, isEmpty, size, List.isEmpty_iff, List.length_eq_zero_iff] }

end Registry

end StepWeave

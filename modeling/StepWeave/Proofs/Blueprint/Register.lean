import StepWeave.Proofs.Blueprint.Check
import StepWeave.Proofs.Registry.Atomic
import StepWeave.ValueType

/-!
# Registering what was linked

Variants are registered in their order up to the first that is refused
(`Blueprint.registerAll_in_order`).  Those for which there is room, and which leave room for
each other, are all registered unless one of them cannot be run
(`Blueprint.registerEach_cases`), and blueprints that pass their check make such variants.
-/

namespace StepWeave

section

variable [Types]

def Variant.key {R : Type} (v : Variant R) : VariantKey := ⟨v.name, v.layer⟩

/-- Of the variants those in `front` are registered one by one, and then registering `v`
fails. -/
structure Registry.RefusesAfter (r : Registry) (type : TypeTag)
    (front : List (Variant type.Carrier)) (v : Variant type.Carrier) (failure : Failure) :
    Prop where
  admits : r.Admits (front.map (.mk type))
  fails : (register type v (r.after (front.map (.mk type)))).1 = .error failure

theorem Registry.refusesAfter_cons {r : Registry} {type : TypeTag}
    {front : List (Variant type.Carrier)} {v w : Variant type.Carrier} {failure : Failure} :
    r.RefusesAfter type (w :: front) v failure ↔ (register type w r).1 = .ok () ∧
      (register type w r).2.RefusesAfter type front v failure := by
  constructor
  · rintro ⟨hadmits, hfails⟩
    obtain ⟨hok, hrest⟩ := admits_cons.1 hadmits
    exact ⟨hok, hrest, hfails⟩
  · rintro ⟨hok, hrest, hfails⟩
    exact ⟨admits_cons.2 ⟨hok, hrest⟩, hfails⟩

namespace Blueprint

/-! ## One after the other -/

section

variable (type : TypeTag) {vs : List (Variant type.Carrier)} {r : Registry}

/-- Either all variants are registered, and listed in order, or one that cannot be run is
refused for a defect. -/
theorem registerEach_cases (hroom : ∀ v ∈ vs, r.HasRoom type v.name v.layer)
    (hkeys : (vs.map Variant.key).Nodup) :
    ((∀ v ∈ vs, v.flatten.Runnable) ∧ ∃ r' listings, registerEach type vs r = (.ok (), r') ∧
      r'.listings = r.listings ++ listings ∧
      List.Forall₂ (fun v l => ∃ plan, Plan.build v.flatten = .ok plan ∧
        l = .of v v.flatten plan type.name) vs listings) ∨
    ∃ v ∈ vs, ¬v.flatten.Runnable ∧ ∃ defect r', registerEach type vs r =
      (.error ⟨[.registering v.key], .refused (v.invalid defect)⟩, r') := by
  induction vs generalizing r with
  | nil => exact .inl ⟨by simp, r, [], rfl, (List.append_nil _).symm, .nil⟩
  | cons v rest ih =>
      rw [List.map_cons, List.nodup_cons] at hkeys
      by_cases hrunnable : v.flatten.Runnable
      · obtain ⟨hids, plan, hplan⟩ := hrunnable
        obtain ⟨held, hheld, -, hregister⟩ :=
          Registry.register_of_room hids hplan (hroom v List.mem_cons_self)
        have heach : registerEach type (v :: rest) r = registerEach type rest
            (r.add type held v.flatten (.of v v.flatten plan type.name)) := by
          rw [registerEach, hregister]
        -- The keys differ, so the variant takes no room from those after it.
        have hroom' : ∀ w ∈ rest,
            (r.add type held v.flatten (.of v v.flatten plan type.name)).HasRoom type
              w.name w.layer := by
          intro w hw
          refine (hroom w (List.mem_cons_of_mem v hw)).add hheld (fun hname hlayer => ?_) _
          apply hkeys.1
          rw [v.name_flatten] at hname
          rw [v.layer_flatten] at hlayer
          have hkey : w.key = v.key := by rw [Variant.key, Variant.key, hname, hlayer]
          exact hkey ▸ List.mem_map_of_mem hw
        rw [heach]
        obtain ⟨hrunnable, r', listings, hok, hlistings, hof⟩ | ⟨w, hw, hrefused⟩ :=
          ih hroom' hkeys.2
        · refine .inl ⟨List.forall_mem_cons.2 ⟨⟨hids, plan, hplan⟩, hrunnable⟩, r',
            .of v v.flatten plan type.name :: listings, hok, ?_, .cons ⟨plan, hplan, rfl⟩ hof⟩
          rw [hlistings]
          exact List.append_assoc r.listings [_] listings
        · exact .inr ⟨w, List.mem_cons_of_mem v hw, hrefused⟩
      · obtain ⟨defect, hregister⟩ := Registry.register_of_not_runnable (r := r) hrunnable
        refine .inr ⟨v, List.mem_cons_self, hrunnable, defect, r, ?_⟩
        rw [registerEach, hregister]
        rfl

/-- No variant is refused just if each registration, made after those before it, succeeds. -/
theorem registerEach_eq_ok_iff {r' : Registry} :
    registerEach type vs r = (.ok (), r') ↔
      r.Admits (vs.map (.mk type)) ∧ r' = r.after (vs.map (.mk type)) := by
  induction vs generalizing r with
  | nil =>
      rw [registerEach, List.map_nil]
      simp [Registry.after, eq_comm]
  | cons v rest ih =>
      rw [registerEach, List.map_cons, Registry.admits_cons, Registry.after_cons]
      cases hregister : Registry.register type v r with
      | mk answer next =>
          cases answer with
          | error failure => simp
          | ok => simpa using ih

/-- A variant is refused just if those before it are registered and its own registration then
fails.  The registry is left as the former have made it. -/
theorem registerEach_eq_error_iff {e : LoadError} {r' : Registry} :
    registerEach type vs r = (.error e, r') ↔ ∃ front v rest failure, vs = front ++ v :: rest ∧
      r.RefusesAfter type front v failure ∧ e = ⟨[.registering v.key], .refused failure⟩ ∧
      r' = r.after (front.map (.mk type)) := by
  induction vs generalizing r with
  | nil =>
      rw [registerEach]
      simp
  | cons v rest ih =>
      simp only [registerEach, List.cons_eq_append_iff]
      cases hregister : Registry.register type v r with
      | mk answer next =>
          cases answer with
          | error failure =>
              have hfails : (Registry.register type v r).1 = .error failure := by rw [hregister]
              obtain rfl : next = r := by
                rw [← Registry.register_unchanged hfails, hregister]
              constructor
              · intro h
                cases h
                exact ⟨[], v, rest, failure, .inl ⟨rfl, rfl⟩, ⟨by simp, hfails⟩, rfl, rfl⟩
              · rintro ⟨front, w, rest', failure', ⟨rfl, hsplit⟩ | ⟨front', rfl, -⟩, hrefuses,
                  rfl, rfl⟩
                · cases hsplit
                  cases hfails.symm.trans hrefuses.fails
                  rfl
                · cases hfails.symm.trans (Registry.refusesAfter_cons.1 hrefuses).1
          | ok =>
              have hok : (Registry.register type v r).1 = .ok () := by rw [hregister]
              obtain rfl : (Registry.register type v r).2 = next := by rw [hregister]
              rw [ih]
              constructor
              · rintro ⟨front, w, rest', failure, rfl, hrefuses, rfl, rfl⟩
                exact ⟨v :: front, w, rest', failure, .inr ⟨front, rfl, rfl⟩,
                  Registry.refusesAfter_cons.2 ⟨hok, hrefuses⟩, rfl, rfl⟩
              · rintro ⟨front, w, rest', failure, ⟨rfl, hsplit⟩ | ⟨front', rfl, rfl⟩, hrefuses,
                  rfl, rfl⟩
                · cases hsplit
                  cases hok.symm.trans hrefuses.fails
                · exact ⟨front', w, rest', failure, rfl,
                    (Registry.refusesAfter_cons.1 hrefuses).2, rfl, rfl⟩

/-- Registering a list without a refusal is a history in which all registrations succeed. -/
theorem registerEach_eq_ok {r' : Registry} (h : registerEach type vs r = (.ok (), r')) :
    r' = r.after (vs.map (.mk type)) ∧
      Registry.accepted r (vs.map (.mk type)) = vs.map (.mk type) := by
  obtain ⟨hadmits, hafter⟩ := (registerEach_eq_ok_iff type).1 h
  exact ⟨hafter, hadmits.accepted_eq⟩

end

/-! ## Variants of blueprints -/

section

variable {R : Type} {catalog : Catalog R} {all : List Blueprint} {b : Blueprint}
  {v : Variant R} {variants : List (Variant R)}

theorem Yields.key_eq (h : b.Yields catalog all v) : v.key = b.key := by
  have hname : v.name = b.name := h.base.name
  have hlayer : v.layer = b.layer := h.base.layer
  rw [Variant.key, hname, hlayer]
  rfl

/-- The delegate is the one that the blueprint refers to. -/
theorem Yields.delegate_key (h : b.Yields catalog all v) :
    v.delegate.map Variant.key = b.delegate := by
  cases hdelegate : b.delegate with
  | none =>
      rw [h.delegate_eq_none hdelegate]
      rfl
  | some target =>
      obtain ⟨t, d, hfind, hd, hv⟩ := h.exists_delegate hdelegate
      have hkey : t.key = target := by simpa using List.find?_some hfind
      rw [hv, Option.map_some, ← hkey, Variant.key, hd.name, hd.layer]
      rfl

theorem map_key_of_yields (h : List.Forall₂ (Yields catalog all) all variants) :
    variants.map Variant.key = all.map key := by
  rw [eq_comm, ← List.forall₂_eq_eq_eq, List.forall₂_map_left_iff, List.forall₂_map_right_iff]
  exact h.imp fun _ _ hv => hv.key_eq.symm

end

/-! ## All blueprints -/

section

variable {type : TypeTag} {catalog : Catalog type.Carrier} {all : List Blueprint}
  {r r' : Registry} {variants : List (Variant type.Carrier)}

theorem registerAll_of_link_error {cause : LoadError.Cause} (h : link catalog all = .error cause) :
    registerAll type catalog all r = (.error { cause }, r) := by
  rw [registerAll, h]

theorem registerAll_of_link_ok (h : link catalog all = .ok variants) :
    registerAll type catalog all r = registerEach type variants r := by
  rw [registerAll, h]

/-- The variant at some place among those linked is that of the blueprint at the same place. -/
theorem exists_key_eq_of_link {front rest : List (Variant type.Carrier)} {v : Variant type.Carrier}
    (h : link catalog all = .ok (front ++ v :: rest)) :
    ∃ b, all[front.length]? = some b ∧ b.key = v.key := by
  have hv : (front ++ v :: rest)[front.length]? = some v := by simp
  obtain ⟨b, hb, hyields⟩ := exists_getElem?_of_forall₂ (link_eq_ok_iff.1 h).flip hv
  exact ⟨b, hb, hyields.key_eq.symm⟩

end

/-- Nothing is registered unless all blueprints can be linked.  Then they are registered in
their order up to the first that is refused: the registry is the one that those before it make
on what was there, and the error is that of its registration, told for this blueprint. -/
theorem registerAll_in_order (type : TypeTag) (catalog : Catalog type.Carrier)
    (all : List Blueprint) (r : Registry) :
    (∀ cause, link catalog all = .error cause →
      registerAll type catalog all r = (.error { cause }, r)) ∧
    ∀ variants, link catalog all = .ok variants →
      (∀ r', registerAll type catalog all r = (.ok (), r') ↔
        r.Admits (variants.map (.mk type)) ∧ r' = r.after (variants.map (.mk type))) ∧
      ∀ e r', registerAll type catalog all r = (.error e, r') ↔
        ∃ front v rest failure b, variants = front ++ v :: rest ∧
          r.RefusesAfter type front v failure ∧ all[front.length]? = some b ∧
          e = ⟨[.registering b.key], .refused failure⟩ ∧
          r' = r.after (front.map (.mk type)) := by
  refine ⟨fun cause => registerAll_of_link_error,
    fun variants hlink => ⟨fun r' => ?_, fun e r' => ?_⟩⟩
  · rw [registerAll_of_link_ok hlink]
    exact registerEach_eq_ok_iff type
  · rw [registerAll_of_link_ok hlink, registerEach_eq_error_iff]
    constructor
    · rintro ⟨front, v, rest, failure, rfl, hrefuses, rfl, hafter⟩
      obtain ⟨b, hb, hkey⟩ := exists_key_eq_of_link hlink
      exact ⟨front, v, rest, failure, b, rfl, hrefuses, hb, by rw [hkey], hafter⟩
    · rintro ⟨front, v, rest, failure, b, rfl, hrefuses, hb, rfl, hafter⟩
      obtain ⟨b', hb', hkey⟩ := exists_key_eq_of_link hlink
      obtain rfl : b = b' := Option.some.inj (hb.symm.trans hb')
      exact ⟨front, v, rest, failure, rfl, hrefuses, by rw [hkey], hafter⟩

end Blueprint

end

namespace Blueprint

def solo : Blueprint where
  name := "solo"
  steps := ["a"]

/-- A list that does not pass its check: its first blueprint is registered, the second one is
refused. -/
theorem registerAll_in_order_solo : ∃ v,
    link (.ofLists [.hook "a"] []) [solo, solo] = .ok [v, v] ∧
    (Registry.register ValueType.string v .empty).1 = .ok () ∧
    registerAll ValueType.string (.ofLists [.hook "a"] []) [solo, solo] .empty =
      (.error ⟨[.registering ⟨"solo", none⟩], .refused (.duplicatePipeline "solo" none)⟩,
        Registry.empty.after [⟨.string, v⟩]) := by
  obtain ⟨v, hlink, hname, hlayer, hrunnable⟩ : ∃ v : Variant String,
      link (.ofLists [.hook "a"] []) [solo, solo] = .ok [v, v] ∧ v.name = "solo" ∧
      v.layer = none ∧ v.flatten.Runnable := ⟨_, rfl, rfl, rfl, .of_weave (by decide) rfl rfl⟩
  obtain ⟨hids, plan, hplan⟩ := hrunnable
  obtain ⟨held, -, -, hregister⟩ :=
    @Registry.register_of_room _ ValueType.string v .empty plan hids hplan
      (Registry.hasRoom_of_unbound rfl)
  have hok : (Registry.register ValueType.string v .empty).1 = .ok () := by rw [hregister]
  have hfirst : Registry.empty.Admits [⟨.string, v⟩] :=
    Registry.admits_cons.2 ⟨hok, Registry.admits_nil _⟩
  have hentry : (Registry.empty.after [⟨.string, v⟩]).entries.find? v.name =
      some ⟨.string, held ++ [v.flatten]⟩ := by
    rw [Registry.after_cons, Registry.after_nil, hregister, ← v.name_flatten]
    exact Registry.find?_add _
  have hsecond : (Registry.register ValueType.string v (Registry.empty.after [⟨.string, v⟩])).1 =
      .error (.duplicatePipeline "solo" none) := by
    rw [← hname, ← hlayer]
    exact Registry.register_eq_error_iff.2
      (.taken ⟨hids, plan, hplan⟩ hentry ⟨v.flatten, by simp, v.layer_flatten⟩)
  have hrefuses : Registry.empty.RefusesAfter .string [v] v (.duplicatePipeline "solo" none) :=
    ⟨hfirst, hsecond⟩
  exact ⟨v, hlink, hok, (((registerAll_in_order ValueType.string _ _ _).2 _ hlink).2 _ _).2
    ⟨[v], v, [], _, solo, rfl, hrefuses, rfl, rfl, rfl⟩⟩

end Blueprint

end StepWeave

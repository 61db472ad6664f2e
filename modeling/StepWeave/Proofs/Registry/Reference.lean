import StepWeave.Proofs.Keys
import StepWeave.Proofs.Registry.History

/-!
# What a registry answers

The answer of a registry is told by the registrations that succeeded, without a look
at what is stored: the first one of a name binds its type, and the one for the layer
or else the default is found (`Registry.reference`).
-/

namespace StepWeave

variable [Types]

namespace Registry

/-! ## The reference -/

namespace Registration

def name (g : Registration) : String := g.variant.name

def layer (g : Registration) : Option String := g.variant.layer

theorem name_flatten (g : Registration) : g.variant.flatten.name = g.name :=
  g.variant.name_flatten

theorem layer_flatten (g : Registration) : g.variant.flatten.layer = g.layer :=
  g.variant.layer_flatten

/-- The flattened variant, if it is for the given response type. -/
def flat? (g : Registration) (type : TypeTag) : Option (Variant type.Carrier) :=
  if h : g.type = type then some (h ▸ g.variant.flatten) else none

@[simp] theorem flat?_mk (type : TypeTag) (v : Variant type.Carrier) :
    (mk type v).flat? type = some v.flatten := by
  simp [flat?]

end Registration

/-- The registrations that succeed when all are made one after the other on `r`. -/
def accepted (r : Registry) : List Registration → List Registration
  | [] => []
  | g :: rest =>
    match register g.type g.variant r with
    | (.ok (), next) => g :: accepted next rest
    | (.error _, next) => accepted next rest

def definition? (registered : List Registration) (type : TypeTag) (name : String)
    (layer : Option String) : Option (Variant type.Carrier) :=
  (registered.find? fun g => g.name = name ∧ g.layer = layer).bind (·.flat? type)

/-- The answer that registrations which all succeeded call for. -/
def reference (registered : List Registration) (type : TypeTag) (name : String)
    (layer : Option String) : Except Failure (Variant type.Carrier) :=
  match registered.find? (·.name = name) with
  | none => .error (.unknownPipeline name layer)
  | some first =>
    if first.type ≠ type then
      .error (.wrongResponseType name first.type.name type.name)
    else
      match definition? registered type name layer with
      | some v => .ok v
      | none =>
        match layer.bind fun _ => definition? registered type name none with
        | some v => .ok v
        | none => .error (.unknownPipeline name layer)

/-! ## Entries and the registrations behind them -/

/-- The entry of a name is made of the registrations `registered`, all for its type. -/
def MadeOf : Option Entry → List Registration → Prop
  | none, registered => registered = []
  | some ⟨type, held⟩, registered => registered ≠ [] ∧
    ∃ vs : List (Variant type.Carrier),
      registered = vs.map (Registration.mk type) ∧ held = vs.map Variant.flatten

/-- Every entry of `r` is made of those among `registered` that have its name. -/
def Recounts (r : Registry) (registered : List Registration) : Prop :=
  ∀ name, MadeOf (r.entries.find? name) (registered.filter (·.name = name))

theorem madeOf_concat {r : Registry} {type : TypeTag} {name : String}
    {held : List (Variant type.Carrier)} {registered : List Registration}
    (h : MadeOf (r.entries.find? name) registered) (hheld : r.Holds type name held)
    (v : Variant type.Carrier) :
    MadeOf (some ⟨type, held ++ [v.flatten]⟩) (registered ++ [⟨type, v⟩]) := by
  refine ⟨by simp, ?_⟩
  obtain ⟨hnone, rfl⟩ | hsome := hheld
  · rw [hnone] at h
    obtain rfl : registered = [] := h
    exact ⟨[v], rfl, rfl⟩
  · rw [hsome] at h
    obtain ⟨-, vs, rfl, rfl⟩ := h
    exact ⟨vs ++ [v], by simp, by simp⟩

theorem accepted_concat (history : List Registration) (g : Registration) (r : Registry) :
    accepted r (history ++ [g]) = accepted r history ++
      accepted (history.foldl (fun r g => (register g.type g.variant r).2) r) [g] := by
  induction history generalizing r with
  | nil => rfl
  | cons g' rest ih =>
      rw [List.cons_append, List.foldl_cons, accepted, accepted]
      cases hregister : register g'.type g'.variant r with
      | mk answer next =>
          cases answer with
          | error failure => exact ih next
          | ok => exact congrArg (g' :: ·) (ih next)

theorem Recounts.register {r : Registry} {registered : List Registration}
    (h : r.Recounts registered) (g : Registration) :
    (register g.type g.variant r).2.Recounts (registered ++ accepted r [g]) := by
  obtain ⟨type, v⟩ := g
  obtain ⟨failure, heq⟩ | ⟨plan, held, -, -, hheld, -, heq⟩ := register_cases type v r
  · have haccepted : accepted r [⟨type, v⟩] = [] := by
      rw [accepted, heq]
      rfl
    rw [haccepted, List.append_nil, heq]
    exact h
  · have haccepted : accepted r [⟨type, v⟩] = [⟨type, v⟩] := by
      rw [accepted, heq]
      rfl
    rw [haccepted, heq]
    intro name
    rw [List.filter_append, List.filter_singleton, add, Keyed.find?_insert]
    rw [v.name_flatten] at hheld ⊢
    by_cases hname : v.name = name
    · subst hname
      rw [if_pos rfl]
      simpa [Registration.name] using madeOf_concat (h v.name) hheld v
    · rw [if_neg hname]
      simpa [Registration.name, hname] using h name

theorem recounts_ofHistory (history : List Registration) :
    (ofHistory history).Recounts (accepted .empty history) := by
  induction history using List.reverseRecOn with
  | nil => exact fun name => rfl
  | append_singleton history g ih =>
      rw [ofHistory_concat, accepted_concat]
      exact ih.register g

/-! ## Looking up among the registrations -/

section

variable {r : Registry} {registered : List Registration} {type : TypeTag} {name : String}

theorem definition?_eq_of_filter_eq {vs : List (Variant type.Carrier)}
    (h : registered.filter (·.name = name) = vs.map (Registration.mk type))
    (layer : Option String) :
    definition? registered type name layer =
      (vs.map Variant.flatten).find? (·.layer = layer) := by
  have hfind : (registered.find? fun g => g.name = name ∧ g.layer = layer) =
      (registered.filter (·.name = name)).find? (·.layer = layer) := by
    rw [List.find?_filter]
    simp
  have hmk : (fun g : Registration => decide (g.layer = layer)) ∘ Registration.mk type =
      fun v => decide (v.layer = layer) := rfl
  have hflatten : (fun v : Variant type.Carrier => decide (v.layer = layer)) ∘ Variant.flatten =
      fun v => decide (v.layer = layer) := by
    funext v
    rw [Function.comp_apply, v.layer_flatten]
  rw [definition?, hfind, h, List.find?_map, List.find?_map, hmk, hflatten]
  cases vs.find? fun v => decide (v.layer = layer) with
  | none => rfl
  | some v => exact Registration.flat?_mk type v

/-- A registry that recounts its registrations answers as they call for. -/
theorem Recounts.resolve_eq (h : r.Recounts registered) (type : TypeTag) (name : String)
    (layer : Option String) :
    r.resolve type name layer = reference registered type name layer := by
  have hname := h name
  have hhead : registered.find? (·.name = name) =
      (registered.filter (·.name = name)).head? := List.head?_filter.symm
  cases hentry : r.entries.find? name with
  | none =>
      rw [hentry] at hname
      have hnil : registered.filter (·.name = name) = [] := hname
      rw [resolve_of_unbound hentry, reference, hhead, hnil]
      rfl
  | some entry =>
      obtain ⟨type', held⟩ := entry
      rw [hentry] at hname
      obtain ⟨hne, vs, hvs, rfl⟩ := hname
      obtain ⟨first, rest, rfl⟩ : ∃ first rest, vs = first :: rest :=
        List.exists_cons_of_ne_nil fun hnil => hne (by rw [hvs, hnil]; rfl)
      rw [hvs] at hhead
      by_cases htype : type' = type
      · subst htype
        rw [resolve_of_bound hentry, ← definition?_eq_of_filter_eq hvs,
          ← definition?_eq_of_filter_eq hvs, reference, hhead]
        cases hexact : definition? registered type' name layer with
        | some v => simp
        | none =>
            cases layer with
            | none => simp [hexact]
            | some l => cases definition? registered type' name none <;> simp
      · rw [resolve_of_ne hentry htype, reference, hhead]
        exact (if_pos htype).symm

theorem Recounts.entry_of_mem (h : r.Recounts registered) {g : Registration}
    (hg : g ∈ registered) :
    ∃ (type : TypeTag) (vs : List (Variant type.Carrier)),
      r.entries.find? g.name = some ⟨type, vs.map Variant.flatten⟩ ∧
      registered.filter (·.name = g.name) = vs.map (Registration.mk type) := by
  have hmade := h g.name
  have hmem : g ∈ registered.filter (·.name = g.name) := List.mem_filter.2 ⟨hg, by simp⟩
  cases hentry : r.entries.find? g.name with
  | none =>
      rw [hentry] at hmade
      have hnil : registered.filter (·.name = g.name) = [] := hmade
      rw [hnil] at hmem
      contradiction
  | some entry =>
      obtain ⟨type, held⟩ := entry
      rw [hentry] at hmade
      obtain ⟨-, vs, hvs, rfl⟩ := hmade
      exact ⟨type, vs, rfl, hvs⟩

end

section

variable (history : List Registration)

theorem pairwise_accepted :
    (accepted .empty history).Pairwise fun g g' => (g.name, g.layer) ≠ (g'.name, g'.layer) := by
  refine pairwise_key_of_filter fun name => ?_
  by_cases hnil : (accepted .empty history).filter (·.name = name) = []
  · rw [hnil]
    exact .nil
  · obtain ⟨g, hg⟩ := List.exists_mem_of_ne_nil _ hnil
    obtain ⟨hmem, hname⟩ := List.mem_filter.1 hg
    obtain rfl : g.name = name := of_decide_eq_true hname
    obtain ⟨type, vs, hentry, hvs⟩ := Recounts.entry_of_mem (recounts_ofHistory history) hmem
    have hlayers := (consistent_ofHistory history).layers g.name type _ (.inr hentry)
    rw [List.pairwise_map] at hlayers
    rw [hvs, List.pairwise_map]
    exact hlayers.imp fun hlayer => by simpa [Registration.layer] using hlayer

theorem type_eq_of_mem_accepted {g g' : Registration} (hg : g ∈ accepted .empty history)
    (hg' : g' ∈ accepted .empty history) (hname : g'.name = g.name) : g'.type = g.type := by
  obtain ⟨type, vs, -, hvs⟩ := Recounts.entry_of_mem (recounts_ofHistory history) hg
  have htype : ∀ d ∈ (accepted .empty history).filter (·.name = g.name), d.type = type := by
    intro d hd
    rw [hvs, List.mem_map] at hd
    obtain ⟨v, -, rfl⟩ := hd
    rfl
  rw [htype g (List.mem_filter.2 ⟨hg, by simp⟩),
    htype g' (List.mem_filter.2 ⟨hg', by simp [hname]⟩)]

end

/-! ## The order of registrations -/

section

variable {registered registered' : List Registration} {type : TypeTag}

/-- Where one type is asked for and all registrations have it, the answer is the one for the
layer or else the default. -/
theorem reference_of_type (h : ∀ g ∈ registered, g.type = type) (name : String)
    (layer : Option String) :
    reference registered type name layer =
      match (definition? registered type name layer).or (definition? registered type name none) with
      | some v => .ok v
      | none => .error (.unknownPipeline name layer) := by
  rw [reference]
  cases hfind : registered.find? (·.name = name) with
  | none =>
      have hnone : ∀ layer, definition? registered type name layer = none := by
        intro layer
        rw [List.find?_eq_none] at hfind
        have hfind' : (registered.find? fun g => g.name = name ∧ g.layer = layer) = none := by
          simp_all
        rw [definition?, hfind']
        rfl
      rw [hnone, hnone]
      rfl
  | some first =>
      have htype : first.type = type := h first (List.mem_of_find?_eq_some hfind)
      simp only [htype, ne_eq, not_true_eq_false, if_false]
      cases hexact : definition? registered type name layer with
      | some v => rfl
      | none =>
          cases layer with
          | none => simp [hexact]
          | some l => rfl

theorem definition?_map_mk (vs : List (Variant type.Carrier)) (name : String)
    (layer : Option String) :
    definition? (vs.map (Registration.mk type)) type name layer =
      (vs.find? fun v => v.name = name ∧ v.layer = layer).map Variant.flatten := by
  have hmk : (fun g : Registration => decide (g.name = name ∧ g.layer = layer)) ∘
      Registration.mk type = fun v => decide (v.name = name ∧ v.layer = layer) := rfl
  rw [definition?, List.find?_map, hmk]
  cases vs.find? fun v => decide (v.name = name ∧ v.layer = layer) with
  | none => rfl
  | some v => exact Registration.flat?_mk type v

/-- Where all variants of a list can be registered, the one for the layer or else the default
is found. -/
theorem resolve_of_accepted {vs : List (Variant type.Carrier)}
    (h : accepted .empty (vs.map (Registration.mk type)) = vs.map (Registration.mk type))
    {name : String} {layer : Option String} {found : Option (Variant type.Carrier)}
    (hfound : (vs.find? fun v => v.name = name ∧ v.layer = layer).or
      (vs.find? fun v => v.name = name ∧ v.layer = none) = found) :
    (ofHistory (vs.map (Registration.mk type))).resolve type name layer =
      found.elim (.error (.unknownPipeline name layer)) fun v => .ok v.flatten := by
  have htype : ∀ g ∈ vs.map (Registration.mk type), g.type = type :=
    List.forall_mem_map.2 fun _ _ => rfl
  rw [(recounts_ofHistory _).resolve_eq, h, reference_of_type htype, definition?_map_mk,
    definition?_map_mk, ← Option.map_or, hfound]
  cases found <;> rfl

/-- The answer does not depend on the order of registrations that have names and layers of
their own and one type for each name. -/
theorem reference_of_perm (hperm : registered.Perm registered')
    (hkeys : (registered.map fun g => (g.name, g.layer)).Nodup)
    (htypes : ∀ g ∈ registered, ∀ g' ∈ registered, g'.name = g.name → g'.type = g.type)
    (type : TypeTag) (name : String) (layer : Option String) :
    reference registered type name layer = reference registered' type name layer := by
  have hdefinition (layer : Option String) :
      definition? registered type name layer = definition? registered' type name layer := by
    have hfind := find?_key_of_perm hperm hkeys (name, layer)
    simp only [Prod.mk.injEq] at hfind
    rw [definition?, definition?, hfind]
  have hbound : (registered.find? (·.name = name)).map Registration.type =
      (registered'.find? (·.name = name)).map Registration.type := by
    cases hfind : registered.find? (·.name = name) with
    | none =>
        have hnone : registered'.find? (·.name = name) = none := by
          rw [List.find?_eq_none] at hfind ⊢
          exact fun g hg => hfind g (hperm.mem_iff.2 hg)
        rw [hnone]
    | some first =>
        have hmem := hperm.mem_iff.1 (List.mem_of_find?_eq_some hfind)
        have hname : first.name = name := by simpa using List.find?_some hfind
        obtain ⟨first', hfind'⟩ : ∃ first', registered'.find? (·.name = name) = some first' :=
          Option.isSome_iff_exists.1 (List.find?_isSome.2 ⟨first, hmem, by simpa using hname⟩)
        have hmem' := hperm.mem_iff.2 (List.mem_of_find?_eq_some hfind')
        have hname' : first'.name = name := by simpa using List.find?_some hfind'
        rw [hfind', Option.map_some, Option.map_some,
          htypes first (List.mem_of_find?_eq_some hfind) first' hmem' (hname'.trans hname.symm)]
  rw [reference, reference, hdefinition, hdefinition]
  cases hfind : registered.find? (·.name = name) <;>
    cases hfind' : registered'.find? (·.name = name) <;> simp_all

end

/-! ## What a registration leaves as it was -/

section

variable {r : Registry} {g : Registration} {type : TypeTag} {name : String}
  {layer : Option String}

theorem resolve_congr {r' : Registry} (h : r'.entries.find? name = r.entries.find? name) :
    r'.resolve type name layer = r.resolve type name layer := by
  unfold resolve variants
  rw [h]

theorem resolve_register_of_name_ne (h : g.name ≠ name) :
    (register g.type g.variant r).2.resolve type name layer = r.resolve type name layer := by
  obtain ⟨failure, heq⟩ | ⟨plan, held, -, -, -, -, heq⟩ := register_cases g.type g.variant r
  · rw [heq]
  · rw [heq]
    apply resolve_congr
    rw [add, Keyed.find?_insert, if_neg]
    rwa [g.name_flatten]

/-- A variant for a layer is the answer for no other layer. -/
theorem resolve_register_of_layer_ne {x : String} (hlayer : g.layer = some x)
    (hbound : ∃ entry, r.entries.find? g.name = some entry) (hne : layer ≠ some x) :
    (register g.type g.variant r).2.resolve type name layer = r.resolve type name layer := by
  by_cases hname : g.name = name
  · subst hname
    obtain ⟨failure, heq⟩ | ⟨plan, held, -, -, hheld, -, heq⟩ :=
      register_cases g.type g.variant r
    · rw [heq]
    · rw [heq]
      rw [g.name_flatten] at hheld
      obtain ⟨entry, hentry⟩ := hbound
      obtain ⟨hnone, -⟩ | hsome := hheld
      · rw [hnone] at hentry
        contradiction
      · have hafter : (r.add g.type held g.variant.flatten
            (.of g.variant g.variant.flatten plan g.type.name)).entries.find? g.name =
              some ⟨g.type, held ++ [g.variant.flatten]⟩ := by
          rw [add, Keyed.find?_insert, if_pos g.name_flatten]
        have hflat : g.variant.flatten.layer = some x := g.layer_flatten.trans hlayer
        by_cases htype : g.type = type
        · subst htype
          rw [resolve_of_bound hafter, resolve_of_bound hsome, List.find?_append,
            List.find?_append, List.find?_singleton, List.find?_singleton, hflat]
          simp [Ne.symm hne]
        · rw [resolve_of_ne hafter htype, resolve_of_ne hsome htype]
  · exact resolve_register_of_name_ne hname

end

/-- Whatever was registered, and with whatever success: the answer is the one that the
successful registrations call for.  These have one type for each name, and each has a name
and layer of its own.  One more registration changes no answer but those for its own name,
and for its own layer if it has one and the name was there before. -/
theorem resolve_eq_reference (history : List Registration) :
    (∀ type name layer, (ofHistory history).resolve type name layer =
      reference (accepted .empty history) type name layer) ∧
    (∀ g ∈ accepted .empty history, ∀ g' ∈ accepted .empty history,
      g'.name = g.name → g'.type = g.type) ∧
    (accepted .empty history).Pairwise (fun g g' => (g.name, g.layer) ≠ (g'.name, g'.layer)) ∧
    (∀ g : Registration, ∀ type name layer, g.name ≠ name →
      (ofHistory (history ++ [g])).resolve type name layer =
        (ofHistory history).resolve type name layer) ∧
    ∀ (g : Registration) (x : String), g.layer = some x →
      (∃ g' ∈ accepted .empty history, g'.name = g.name) → ∀ type name layer, layer ≠ some x →
        (ofHistory (history ++ [g])).resolve type name layer =
          (ofHistory history).resolve type name layer := by
  have hrecounts := recounts_ofHistory history
  refine ⟨hrecounts.resolve_eq, fun g hg g' hg' => type_eq_of_mem_accepted history hg hg',
    pairwise_accepted history, ?_, ?_⟩
  · intro g type name layer hname
    rw [ofHistory_concat]
    exact resolve_register_of_name_ne hname
  · intro g x hlayer hregistered type name layer hne
    rw [ofHistory_concat]
    refine resolve_register_of_layer_ne hlayer ?_ hne
    obtain ⟨g', hg', hname⟩ := hregistered
    obtain ⟨type', vs, hentry, -⟩ := hrecounts.entry_of_mem hg'
    exact ⟨_, hname ▸ hentry⟩

end Registry

end StepWeave

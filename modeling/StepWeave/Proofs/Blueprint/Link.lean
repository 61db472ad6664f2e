import StepWeave.Blueprint
import StepWeave.Proofs.Lists

/-!
# Linking

What a blueprint asks of a catalog (`Blueprint.Resolves`) and what becomes of it among
the blueprints that it is linked with (`Blueprint.Yields`).  Linking succeeds just when
every blueprint yields a variant, and then it gives those variants in order
(`Blueprint.link_eq_ok_iff`).
-/

namespace StepWeave

theorem Variant.with_delegate [Types] {R : Type} {v : Variant R} {delegate : Option (Variant R)}
    (h : v.delegate = delegate) : { v with delegate } = v := by
  cases v
  cases h
  rfl

namespace Blueprint

/-! ## Looking up one after the other -/

section

variable {α β γ : Type} {find : α → Except LoadError.Cause β} {l : List α} {bs : List β}

theorem linkEach_cons_eq_ok_iff (a : α) :
    linkEach find (a :: l) = .ok bs ↔
      ∃ b bs', find a = .ok b ∧ linkEach find l = .ok bs' ∧ bs = b :: bs' := by
  rw [linkEach]
  cases find a with
  | error cause => simp
  | ok b => cases linkEach find l <;> simp [eq_comm]

theorem linkEach_eq_ok_iff :
    linkEach find l = .ok bs ↔ List.Forall₂ (fun a b => find a = .ok b) l bs := by
  induction l generalizing bs with
  | nil =>
      rw [linkEach, List.forall₂_nil_left_iff, Except.ok.injEq]
      exact eq_comm
  | cons a rest ih =>
      rw [linkEach_cons_eq_ok_iff, List.forall₂_cons_left_iff]
      simp only [ih]

theorem exists_linkEach_iff :
    (∃ bs, linkEach find l = .ok bs) ↔ ∀ a ∈ l, ∃ b, find a = .ok b := by
  simp only [linkEach_eq_ok_iff]
  exact exists_forall₂_iff

theorem linkEach_eq_error {cause : LoadError.Cause} (h : linkEach find l = .error cause) :
    ∃ a ∈ l, find a = .error cause := by
  induction l with
  | nil => cases h
  | cons a rest ih =>
      rw [linkEach] at h
      cases hfind : find a with
      | error cause' =>
          rw [hfind] at h
          cases h
          exact ⟨a, List.mem_cons_self, hfind⟩
      | ok b =>
          cases hrest : linkEach find rest with
          | error cause' =>
              simp only [hfind, hrest] at h
              cases h
              obtain ⟨a', ha', herror⟩ := ih hrest
              exact ⟨a', List.mem_cons_of_mem a ha', herror⟩
          | ok bs' => simp [hfind, hrest] at h

/-- Where each result has the same image as what was looked up, so have all of them. -/
theorem linkEach_eq_ok_iff_map {f : α → γ} {g : β → γ}
    (hfind : ∀ a b, find a = .ok b ↔ f a = g b) :
    linkEach find l = .ok bs ↔ l.map f = bs.map g := by
  rw [linkEach_eq_ok_iff, ← List.forall₂_eq_eq_eq, List.forall₂_map_left_iff,
    List.forall₂_map_right_iff]
  simp only [hfind]

end

/-! ## One blueprint -/

variable [Types] {R : Type} {catalog : Catalog R} {all : List Blueprint} {b t : Blueprint}
  {v w d : Variant R} {variants : List (Variant R)}

/-- `v` is the blueprint with its ids looked up, without a delegate. -/
structure Resolves (catalog : Catalog R) (b : Blueprint) (v : Variant R) : Prop where
  name : v.name = b.name
  layer : v.layer = b.layer
  delegate : v.delegate = none
  steps : b.steps.map catalog.step? = v.steps.map some
  extensions : b.extensions.map catalog.step? = v.extensions.map some
  interceptors : b.interceptors.map catalog.interceptor? = v.interceptors.map some

theorem linkStep_eq_ok_iff (id : String) (s : Step R) :
    linkStep catalog b id = .ok s ↔ catalog.step? id = some s := by
  unfold linkStep
  cases catalog.step? id <;> simp

theorem linkExtension_eq_ok_iff (e : String × String) (x : String × Step R) :
    linkExtension catalog b e = .ok x ↔ (e.1, catalog.step? e.2) = (x.1, some x.2) := by
  unfold linkExtension
  cases catalog.step? e.2 <;> simp [Prod.ext_iff]

theorem linkInterceptor_eq_ok_iff (id : String) (i : Interceptor R) :
    linkInterceptor catalog b id = .ok i ↔ catalog.interceptor? id = some i := by
  unfold linkInterceptor
  cases catalog.interceptor? id <;> simp

theorem linkBase_eq_ok_iff : linkBase catalog b = .ok v ↔ b.Resolves catalog v := by
  have hextensions (l : List (String × Step R)) :
      linkEach (linkExtension catalog b) b.extensions.entries = .ok l ↔
        (b.extensions.map catalog.step?).entries = l.map fun e => (e.1, some e.2) :=
    linkEach_eq_ok_iff_map linkExtension_eq_ok_iff
  constructor
  · intro h
    unfold linkBase at h
    split at h
    · cases h
    next steps hsteps =>
      split at h
      · cases h
      next extensions hlinked =>
        split at h
        · cases h
        next interceptors hinterceptors =>
          cases h
          exact {
            name := rfl
            layer := rfl
            delegate := rfl
            steps := (linkEach_eq_ok_iff_map linkStep_eq_ok_iff).1 hsteps
            extensions := (Keyed.map_ofList ((hextensions extensions).1 hlinked).symm).symm
            interceptors := (linkEach_eq_ok_iff_map linkInterceptor_eq_ok_iff).1 hinterceptors }
  · intro h
    have hsteps := (linkEach_eq_ok_iff_map (linkStep_eq_ok_iff (b := b))).2 h.steps
    have hlinked := (hextensions v.extensions.entries).2 (congrArg Keyed.entries h.extensions)
    have hinterceptors :=
      (linkEach_eq_ok_iff_map (linkInterceptor_eq_ok_iff (b := b))).2 h.interceptors
    obtain ⟨name, layer, delegate, steps, extensions, interceptors⟩ := v
    obtain ⟨rfl, rfl, rfl, -, -, -⟩ := h
    simp only at hsteps hlinked hinterceptors
    rw [linkBase, hsteps, hlinked, hinterceptors]
    simp only [Keyed.ofList_entries]

theorem Resolves.unique (h : b.Resolves catalog v) (h' : b.Resolves catalog w) : v = w :=
  Except.ok.inj ((linkBase_eq_ok_iff.2 h).symm.trans (linkBase_eq_ok_iff.2 h'))

/-- The catalog knows the ids to which the blueprint refers. -/
structure KnownTo (b : Blueprint) (catalog : Catalog R) : Prop where
  steps : ∀ id ∈ b.steps, ∃ s, catalog.step? id = some s
  extensions : ∀ id ∈ b.extensions.values, ∃ s, catalog.step? id = some s
  interceptors : ∀ id ∈ b.interceptors, ∃ i, catalog.interceptor? id = some i

theorem exists_linkBase_iff :
    (∃ v, linkBase catalog b = .ok v) ↔
      (∃ steps, linkEach (linkStep catalog b) b.steps = .ok steps) ∧
      (∃ extensions, linkEach (linkExtension catalog b) b.extensions.entries = .ok extensions) ∧
      ∃ interceptors, linkEach (linkInterceptor catalog b) b.interceptors = .ok interceptors := by
  unfold linkBase
  cases linkEach (linkStep catalog b) b.steps with
  | error cause => simp
  | ok steps =>
      cases linkEach (linkExtension catalog b) b.extensions.entries with
      | error cause => simp
      | ok extensions =>
          cases linkEach (linkInterceptor catalog b) b.interceptors <;> simp

theorem exists_resolves_iff : (∃ v, b.Resolves catalog v) ↔ b.KnownTo catalog := by
  have hextension (e : String × String) :
      (∃ x, linkExtension catalog b e = .ok x) ↔ ∃ s, catalog.step? e.2 = some s := by
    simp [linkExtension_eq_ok_iff, Prod.ext_iff]
  simp only [← linkBase_eq_ok_iff, exists_linkBase_iff, exists_linkEach_iff, linkStep_eq_ok_iff,
    hextension, linkInterceptor_eq_ok_iff]
  constructor
  · rintro ⟨hsteps, hextensions, hinterceptors⟩
    exact ⟨hsteps, List.forall_mem_map.2 hextensions, hinterceptors⟩
  · intro h
    have hextensions : ∀ e ∈ b.extensions.entries, ∃ s, catalog.step? e.2 = some s :=
      fun e he => h.extensions e.2 (List.mem_map_of_mem he)
    exact ⟨h.steps, hextensions, h.interceptors⟩

/-- The cause tells of an id to which the blueprint refers and which the catalog does not
know. -/
inductive Misses (catalog : Catalog R) (b : Blueprint) : LoadError.Cause → Prop where
  | step {id : String} (hid : id ∈ b.steps) (h : catalog.step? id = none) :
    Misses catalog b (.unknownStep b.key id)
  | extension {hook id : String} (hid : (hook, id) ∈ b.extensions.entries)
      (h : catalog.step? id = none) :
    Misses catalog b (.unknownExtension b.key hook id)
  | interceptor {id : String} (hid : id ∈ b.interceptors) (h : catalog.interceptor? id = none) :
    Misses catalog b (.unknownInterceptor b.key id)

section

variable {cause : LoadError.Cause} {id : String}

theorem misses_of_linkStep (hid : id ∈ b.steps) (h : linkStep catalog b id = .error cause) :
    b.Misses catalog cause := by
  unfold linkStep at h
  split at h
  · cases h
  next hnone =>
    cases h
    exact .step hid hnone

theorem misses_of_linkExtension {e : String × String} (he : e ∈ b.extensions.entries)
    (h : linkExtension catalog b e = .error cause) : b.Misses catalog cause := by
  unfold linkExtension at h
  split at h
  · cases h
  next hnone =>
    cases h
    exact .extension he hnone

theorem misses_of_linkInterceptor (hid : id ∈ b.interceptors)
    (h : linkInterceptor catalog b id = .error cause) : b.Misses catalog cause := by
  unfold linkInterceptor at h
  split at h
  · cases h
  next hnone =>
    cases h
    exact .interceptor hid hnone

theorem misses_of_linkBase (h : linkBase catalog b = .error cause) : b.Misses catalog cause := by
  unfold linkBase at h
  split at h
  next hsteps =>
    cases h
    obtain ⟨id, hid, herror⟩ := linkEach_eq_error hsteps
    exact misses_of_linkStep hid herror
  · split at h
    next hextensions =>
      cases h
      obtain ⟨e, he, herror⟩ := linkEach_eq_error hextensions
      exact misses_of_linkExtension he herror
    · split at h
      next hinterceptors =>
        cases h
        obtain ⟨id, hid, herror⟩ := linkEach_eq_error hinterceptors
        exact misses_of_linkInterceptor hid herror
      · cases h

end

/-! ## Blueprints among others -/

/-- `v` is what linking makes of the blueprint among `all`: with its ids looked up and, if
it delegates, with the delegate's ids looked up. -/
structure Yields (catalog : Catalog R) (all : List Blueprint) (b : Blueprint) (v : Variant R) :
    Prop where
  base : b.Resolves catalog { v with delegate := none }
  delegate : match b.delegate with
    | none => v.delegate = none
    | some target => ∃ t d, all.find? (·.key = target) = some t ∧ t.Resolves catalog d ∧
        v.delegate = some d

section

variable {target : VariantKey}

theorem Resolves.yields (h : b.Resolves catalog v) (hdelegate : b.delegate = none) :
    b.Yields catalog all v where
  base := by
    rw [Variant.with_delegate h.delegate]
    exact h
  delegate := by
    rw [hdelegate]
    exact h.delegate

theorem Resolves.yields_with (h : b.Resolves catalog v) (hdelegate : b.delegate = some target)
    (hfind : all.find? (·.key = target) = some t) (ht : t.Resolves catalog d) :
    b.Yields catalog all { v with delegate := some d } where
  base := by
    show b.Resolves catalog { v with delegate := none }
    rw [Variant.with_delegate h.delegate]
    exact h
  delegate := by
    rw [hdelegate]
    exact ⟨t, d, hfind, ht, rfl⟩

theorem Yields.delegate_eq_none (h : b.Yields catalog all v) (hdelegate : b.delegate = none) :
    v.delegate = none := by
  have hv := h.delegate
  rwa [hdelegate] at hv

theorem Yields.exists_delegate (h : b.Yields catalog all v)
    (hdelegate : b.delegate = some target) :
    ∃ t d, all.find? (·.key = target) = some t ∧ t.Resolves catalog d ∧ v.delegate = some d := by
  have hv := h.delegate
  rwa [hdelegate] at hv

end

theorem find?_key_zip (h : List.Forall₂ (Resolves catalog) all variants) (target : VariantKey) :
    all.find? (·.key = target) =
      ((all.zip variants).find? (·.1.key = target)).map Prod.fst := by
  have hall := List.map_fst_zip (Nat.le_of_eq h.length_eq)
  conv => lhs; rw [← hall, List.find?_map]
  rfl

theorem linkDelegate_eq_ok_iff (hbases : List.Forall₂ (Resolves catalog) all variants)
    (hv : b.Resolves catalog v) :
    linkDelegate (all.zip variants) (b, v) = .ok w ↔ b.Yields catalog all w := by
  unfold linkDelegate
  cases hdelegate : b.delegate with
  | none =>
      rw [Except.ok.injEq]
      constructor
      · rintro rfl
        exact hv.yields hdelegate
      · intro h
        rw [hv.unique h.base]
        exact Variant.with_delegate (h.delegate_eq_none hdelegate)
  | some target =>
      have hfind := find?_key_zip hbases target
      cases hzip : (all.zip variants).find? (·.1.key = target) with
      | none =>
          rw [hzip, Option.map_none] at hfind
          simp only [hzip, reduceCtorEq, false_iff]
          intro h
          obtain ⟨t, d, hfind', -⟩ := h.exists_delegate hdelegate
          rw [hfind] at hfind'
          contradiction
      | some found =>
          obtain ⟨t, d⟩ := found
          have ht := (List.forall₂_iff_zip.1 hbases).2 (List.mem_of_find?_eq_some hzip)
          rw [hzip, Option.map_some] at hfind
          simp only [hzip, Except.ok.injEq]
          constructor
          · rintro rfl
            exact hv.yields_with hdelegate hfind ht
          · intro h
            obtain ⟨t', d', hfind', ht', hw⟩ := h.exists_delegate hdelegate
            obtain rfl : t = t' := Option.some.inj (hfind.symm.trans hfind')
            rw [hv.unique h.base, ht.unique ht']
            exact Variant.with_delegate hw

theorem linkEach_linkDelegate_eq_ok_iff {bases : List (Variant R)}
    (hbases : List.Forall₂ (Resolves catalog) all bases) :
    linkEach (linkDelegate (all.zip bases)) (all.zip bases) = .ok variants ↔
      List.Forall₂ (Yields catalog all) all variants := by
  have hyields : ∀ p ∈ all.zip bases, ∀ v,
      linkDelegate (all.zip bases) p = .ok v ↔ p.1.Yields catalog all v := by
    rintro ⟨b, base⟩ hmem v
    exact linkDelegate_eq_ok_iff hbases ((List.forall₂_iff_zip.1 hbases).2 hmem)
  have hall := List.map_fst_zip (Nat.le_of_eq hbases.length_eq)
  rw [linkEach_eq_ok_iff, forall₂_congr_of_mem hyields]
  conv => rhs; arg 2; rw [← hall]
  rw [List.forall₂_map_left_iff]

theorem linkEach_linkBase_eq_ok_iff {bases : List (Variant R)} :
    linkEach (linkBase catalog) all = .ok bases ↔ List.Forall₂ (Resolves catalog) all bases := by
  rw [linkEach_eq_ok_iff]
  simp only [linkBase_eq_ok_iff]

theorem link_eq_ok_iff :
    link catalog all = .ok variants ↔ List.Forall₂ (Yields catalog all) all variants := by
  constructor
  · intro h
    unfold link at h
    split at h
    · cases h
    next bases hbases =>
      exact (linkEach_linkDelegate_eq_ok_iff (linkEach_linkBase_eq_ok_iff.1 hbases)).1 h
  · intro h
    have hbases : List.Forall₂ (Resolves catalog) all
        (variants.map fun v => { v with delegate := none }) := by
      rw [List.forall₂_map_right_iff]
      exact h.imp fun _ _ hv => hv.base
    rw [link, linkEach_linkBase_eq_ok_iff.2 hbases]
    exact (linkEach_linkDelegate_eq_ok_iff hbases).2 h

end Blueprint

end StepWeave

import StepWeave.Proofs.Blueprint.Link
import StepWeave.Proofs.Keys
import StepWeave.ValueType

/-!
# Checked blueprints

A list of blueprints passes its check just when each of them has a key of its own and
delegates, if at all, to another one of them (`Blueprint.check_eq_ok_iff`).  Such a list
can be linked as soon as the catalog knows all ids in it (`Blueprint.Sound.exists_link_iff`),
and then there is one variant for each place of the list (`Blueprint.Linked`).
-/

namespace StepWeave

namespace Blueprint

section

variable {all : List Blueprint} {b : Blueprint}

/-- The keys are distinct, and delegates refer to other blueprints of the list. -/
structure Sound (all : List Blueprint) : Prop where
  distinct : (all.map key).Nodup
  delegates : ∀ b ∈ all, ∀ target, b.delegate = some target →
    target ≠ b.key ∧ ∃ t ∈ all, t.key = target

theorem checkKeys_eq_ok_iff {seen : List VariantKey} :
    checkKeys seen all = .ok () ↔ Fresh key seen all := by
  induction all generalizing seen with
  | nil => exact iff_of_true rfl fresh_nil
  | cons b rest ih =>
      rw [checkKeys, fresh_cons, ← ih]
      by_cases hseen : b.key ∈ seen <;> simp [hseen]

theorem checkDelegate_eq_ok_iff :
    checkDelegate all b = .ok () ↔ ∀ target, b.delegate = some target →
      target ≠ b.key ∧ ∃ t ∈ all, t.key = target := by
  unfold checkDelegate
  cases b.delegate with
  | none => simp
  | some target =>
      by_cases hself : target = b.key
      · simp [hself]
      · have hany : all.any (·.key = target) = true ↔ ∃ t ∈ all, t.key = target := by simp
        by_cases hdefined : ∃ t ∈ all, t.key = target
        · simp [hself, hany.2 hdefined, hdefined]
        · simp [hself, mt hany.1 hdefined, hdefined]

theorem checkDelegates_eq_ok_iff {l : List Blueprint} :
    checkDelegates all l = .ok () ↔ ∀ b ∈ l, checkDelegate all b = .ok () := by
  induction l with
  | nil => simp [checkDelegates]
  | cons b rest ih =>
      rw [checkDelegates, List.forall_mem_cons, ← ih]
      cases checkDelegate all b <;> simp

theorem check_eq_ok_iff : check all = .ok () ↔ Sound all := by
  have hkeys : checkKeys [] all = .ok () ↔ (all.map key).Nodup :=
    checkKeys_eq_ok_iff.trans fresh_nil_seen
  have hdelegates : checkDelegates all all = .ok () ↔ ∀ b ∈ all, checkDelegate all b = .ok () :=
    checkDelegates_eq_ok_iff
  simp only [checkDelegate_eq_ok_iff] at hdelegates
  constructor
  · intro h
    unfold check at h
    split at h
    · cases h
    next hdistinct => exact ⟨hkeys.1 hdistinct, hdelegates.1 h⟩
  · intro h
    rw [check, hkeys.2 h.distinct]
    exact hdelegates.2 h.delegates

/-- The keys of a list are distinct and its delegates stand elsewhere in it. -/
theorem sound_iff_places :
    Sound all ↔ (all.map key).Nodup ∧ ∀ (n : Nat) b target, all[n]? = some b →
      b.delegate = some target → ∃ (m : Nat) (t : Blueprint),
        m ≠ n ∧ all[m]? = some t ∧ t.key = target := by
  constructor
  · intro h
    refine ⟨h.distinct, fun n b target hb hdelegate => ?_⟩
    obtain ⟨hne, t, ht, hkey⟩ := h.delegates b (List.mem_of_getElem? hb) target hdelegate
    obtain ⟨m, hm⟩ := List.mem_iff_getElem?.1 ht
    refine ⟨m, t, ?_, hm, hkey⟩
    rintro rfl
    obtain rfl : t = b := Option.some.inj (hm.symm.trans hb)
    exact hne hkey.symm
  · rintro ⟨hdistinct, hplaces⟩
    refine ⟨hdistinct, fun b hb target hdelegate => ?_⟩
    obtain ⟨n, hn⟩ := List.mem_iff_getElem?.1 hb
    obtain ⟨m, t, hne, hm, hkey⟩ := hplaces n b target hn hdelegate
    refine ⟨?_, t, List.mem_of_getElem? hm, hkey⟩
    rintro rfl
    obtain ⟨hlt, -⟩ := List.getElem?_eq_some_iff.1 hm
    have hkeys : (all.map key)[m]? = (all.map key)[n]? := by
      rw [List.getElem?_map, List.getElem?_map, hm, hn, Option.map_some, Option.map_some, hkey]
    exact hne ((List.getElem?_inj (by rwa [List.length_map]) hdistinct).1 hkeys)

/-! ## Linking sound lists -/

variable [Types] {R : Type} {catalog : Catalog R}

namespace Sound

theorem exists_yields (h : Sound all) (hknown : ∀ b ∈ all, b.KnownTo catalog) (hb : b ∈ all) :
    ∃ v, b.Yields catalog all v := by
  obtain ⟨v, hv⟩ := exists_resolves_iff.2 (hknown b hb)
  cases hdelegate : b.delegate with
  | none => exact ⟨v, hv.yields hdelegate⟩
  | some target =>
      obtain ⟨-, t, ht, rfl⟩ := h.delegates b hb target hdelegate
      obtain ⟨d, hd⟩ := exists_resolves_iff.2 (hknown t ht)
      exact ⟨{ v with delegate := some d }, hv.yields_with hdelegate (find?_key h.distinct ht) hd⟩

theorem exists_link_iff (h : Sound all) :
    (∃ variants, link catalog all = .ok variants) ↔ ∀ b ∈ all, b.KnownTo catalog := by
  simp only [link_eq_ok_iff]
  rw [exists_forall₂_iff]
  constructor
  · intro hyields b hb
    obtain ⟨v, hv⟩ := hyields b hb
    exact exists_resolves_iff.1 ⟨_, hv.base⟩
  · intro hknown b hb
    exact h.exists_yields hknown hb

/-- Where linking fails, it is for an id that the catalog does not know. -/
theorem misses_of_link (h : Sound all) {cause : LoadError.Cause}
    (hlink : link catalog all = .error cause) : ∃ b ∈ all, b.Misses catalog cause := by
  cases hbases : linkEach (linkBase catalog) all with
  | error cause' =>
      rw [link, hbases] at hlink
      cases hlink
      obtain ⟨b, hb, herror⟩ := linkEach_eq_error hbases
      exact ⟨b, hb, misses_of_linkBase herror⟩
  | ok bases =>
      -- Of checked blueprints whose ids are all found no delegate is missing.
      have hknown : ∀ b ∈ all, b.KnownTo catalog := by
        simp only [← exists_resolves_iff]
        exact exists_forall₂_iff.1 ⟨bases, linkEach_linkBase_eq_ok_iff.1 hbases⟩
      obtain ⟨variants, hok⟩ := h.exists_link_iff.2 hknown
      rw [hlink] at hok
      cases hok

end Sound

/-! ## Places in the list -/

section

variable {v : Variant R} {variants : List (Variant R)}

/-- Place by place, `variants` are the blueprints `all` with their ids looked up, and with the
delegates that they refer to. -/
structure Linked (catalog : Catalog R) (all : List Blueprint) (variants : List (Variant R)) :
    Prop where
  length_eq : variants.length = all.length
  resolves : ∀ (n : Nat) b v, all[n]? = some b → variants[n]? = some v →
    b.Resolves catalog { v with delegate := none }
  delegates_iff : ∀ (n : Nat) b v, all[n]? = some b → variants[n]? = some v →
    (v.delegate ≠ none ↔ b.delegate ≠ none)
  /-- The delegate is the variant at the place referred to, without a delegate of its own. -/
  delegate : ∀ (n m : Nat) b v t w, all[n]? = some b → variants[n]? = some v →
    all[m]? = some t → variants[m]? = some w → b.delegate = some t.key →
    v.delegate = some { w with delegate := none }

theorem Yields.delegate_ne_none_iff (h : b.Yields catalog all v) :
    v.delegate ≠ none ↔ b.delegate ≠ none := by
  cases hdelegate : b.delegate with
  | none => simp [h.delegate_eq_none hdelegate]
  | some target =>
      obtain ⟨t, d, -, -, hv⟩ := h.exists_delegate hdelegate
      simp [hv]

theorem Sound.linked (h : Sound all) (hlink : link catalog all = .ok variants) :
    Linked catalog all variants := by
  have hyields := link_eq_ok_iff.1 hlink
  have hplace {n : Nat} {b : Blueprint} {v : Variant R} (hb : all[n]? = some b)
      (hv : variants[n]? = some v) : b.Yields catalog all v := by
    obtain ⟨v', hv', hyieldsv⟩ := exists_getElem?_of_forall₂ hyields hb
    obtain rfl : v = v' := Option.some.inj (hv.symm.trans hv')
    exact hyieldsv
  exact {
    length_eq := hyields.length_eq.symm
    resolves := fun n b v hb hv => (hplace hb hv).base
    delegates_iff := fun n b v hb hv => (hplace hb hv).delegate_ne_none_iff
    delegate := fun n m b v t w hb hv ht hw hdelegate => by
      obtain ⟨t', d, hfind, hd, hsome⟩ := (hplace hb hv).exists_delegate hdelegate
      rw [find?_key h.distinct (List.mem_of_getElem? ht)] at hfind
      cases hfind
      rw [hsome, hd.unique (hplace ht hw).base] }

end

/-- The check accepts just the lists in which every blueprint has a key of its own and no
delegate but another blueprint of the list.  With any catalog these can be linked just if it
knows all ids to which they refer, those of steps that a delegate makes idle included, and
what is missing is never a delegate.  What linking gives are the variants of the blueprints,
in their order. -/
theorem link_exact (all : List Blueprint) :
    (check all = .ok () ↔
      (all.map key).Nodup ∧ ∀ (n : Nat) b target, all[n]? = some b →
        b.delegate = some target → ∃ (m : Nat) (t : Blueprint),
          m ≠ n ∧ all[m]? = some t ∧ t.key = target) ∧
    (check all = .ok () → ∀ {R : Type} (catalog : Catalog R),
      ((∃ variants, link catalog all = .ok variants) ↔ ∀ b ∈ all, b.KnownTo catalog) ∧
      (∀ cause, link catalog all = .error cause →
        (∃ b ∈ all, b.Misses catalog cause) ∧ ∀ k, cause ≠ .unresolvedDelegate k) ∧
      ∀ variants, link catalog all = .ok variants → Linked catalog all variants) := by
  refine ⟨check_eq_ok_iff.trans sound_iff_places, fun hcheck R catalog => ?_⟩
  have hsound := check_eq_ok_iff.1 hcheck
  refine ⟨hsound.exists_link_iff, fun cause hlink => ?_, fun variants => hsound.linked⟩
  obtain ⟨b, hb, hmisses⟩ := hsound.misses_of_link hlink
  refine ⟨⟨b, hb, hmisses⟩, fun k hk => ?_⟩
  rw [hk] at hmisses
  cases hmisses

end

/-- A page of a shop that delegates to the default page, which follows it. -/
def pages : List Blueprint :=
  [{ name := "page", layer := some "shop", delegate := some ⟨"page", none⟩, steps := ["foot"],
      extensions := .ofList [("after-head", "foot")] },
    { name := "page", steps := ["head"] }]

theorem link_exact_pages :
    check pages = .ok () ∧ ∃ shop page : Variant String,
      link (.ofLists [.hook "head", .hook "foot"] []) pages = .ok [shop, page] ∧
      shop.delegate = some { page with delegate := none } ∧ page.delegate = none := by
  have hcheck : check pages = .ok () := rfl
  obtain ⟨-, -, hexact⟩ := (link_exact pages).2 hcheck (.ofLists [.hook "head", .hook "foot"] [])
  obtain ⟨shop, page, hlink⟩ : ∃ shop page : Variant String,
      link (.ofLists [.hook "head", .hook "foot"] []) pages = .ok [shop, page] := ⟨_, _, rfl⟩
  have hlinked := hexact _ hlink
  have hpage : ¬page.delegate ≠ none := mt (hlinked.delegates_iff 1 _ page rfl rfl).1 (by simp)
  exact ⟨hcheck, shop, page, hlink, hlinked.delegate 0 1 _ shop _ page rfl rfl rfl rfl rfl,
    not_not.1 hpage⟩

end Blueprint

end StepWeave

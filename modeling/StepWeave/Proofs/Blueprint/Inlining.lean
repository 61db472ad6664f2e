import StepWeave.Proofs.Blueprint.Check
import StepWeave.ValueType

/-!
# Delegates written out

A blueprint that delegates comes to the same as one that has no delegate but the steps of
the other one, its extensions overlaid with the own ones, and its interceptors before the
own ones (`Blueprint.inlined`).  A delegate of the delegate plays no part in it, nor do the
steps that the blueprint names itself.
-/

namespace StepWeave

theorem Variant.flatten_of_delegate [Types] {R : Type} {v d : Variant R} (h : v.delegate = some d) :
    v.flatten = { v with
      delegate := none
      steps := d.steps
      extensions := d.extensions.overlay v.extensions
      interceptors := d.interceptors ++ v.interceptors } := by
  unfold flatten
  rw [h]

namespace Blueprint

/-- The blueprint `b` with the delegate `target` written out, one level deep. -/
def inlined (b target : Blueprint) : Blueprint where
  name := b.name
  layer := b.layer
  steps := target.steps
  extensions := target.extensions.overlay b.extensions
  interceptors := target.interceptors ++ b.interceptors

/-! ## Other steps in one blueprint -/

section

variable {all : List Blueprint} {b t : Blueprint} {n : Nat} (hn : all[n]? = some b)
  (steps : List String)
include hn

theorem map_key_set_steps : (all.set n { b with steps }).map key = all.map key := by
  obtain ⟨hlt, rfl⟩ := List.getElem?_eq_some_iff.1 hn
  have hltmap : n < (all.map key).length := by rwa [List.length_map]
  have hkey : key { all[n] with steps } = (all.map key)[n] := by
    rw [List.getElem_map]
    rfl
  rw [List.map_set, hkey, List.set_getElem_self]

theorem Sound.set_steps (h : Sound all) : Sound (all.set n { b with steps }) where
  distinct := by
    rw [map_key_set_steps hn]
    exact h.distinct
  delegates c hc target hdelegate := by
    have hbefore : ∃ c' ∈ all, c'.key = c.key ∧ c'.delegate = c.delegate := by
      obtain hc | rfl := List.mem_or_eq_of_mem_set hc
      · exact ⟨c, hc, rfl, rfl⟩
      · exact ⟨b, List.mem_of_getElem? hn, rfl, rfl⟩
    obtain ⟨c', hc', hkey, hsame⟩ := hbefore
    obtain ⟨hne, htarget⟩ := h.delegates c' hc' target (hsame.trans hdelegate)
    rw [← List.mem_map, ← map_key_set_steps hn steps, List.mem_map] at htarget
    exact ⟨hkey ▸ hne, htarget⟩

theorem mem_set_steps (ht : t ∈ all) (hne : t.key ≠ b.key) : t ∈ all.set n { b with steps } := by
  obtain ⟨m, hm⟩ := List.mem_iff_getElem?.1 ht
  have hmn : n ≠ m := by
    rintro rfl
    obtain rfl : t = b := Option.some.inj (hm.symm.trans hn)
    exact hne rfl
  apply List.mem_of_getElem?
  rw [List.getElem?_set_ne hmn]
  exact hm

end

section

variable [Types] {R : Type} {catalog : Catalog R} {all : List Blueprint} {b t : Blueprint}
  {v d : Variant R} {variants : List (Variant R)}

/-! ## What blueprints yield -/

theorem Resolves.inlined (hb : b.Resolves catalog { v with delegate := none })
    (ht : t.Resolves catalog d) (hdelegate : v.delegate = some d) :
    (b.inlined t).Resolves catalog v.flatten := by
  rw [Variant.flatten_of_delegate hdelegate]
  exact {
    name := hb.name
    layer := hb.layer
    delegate := rfl
    steps := ht.steps
    extensions := by
      show (t.extensions.overlay b.extensions).map catalog.step? =
        (d.extensions.overlay v.extensions).map some
      rw [Keyed.map_overlay, Keyed.map_overlay, ht.extensions]
      exact congrArg _ hb.extensions
    interceptors := by
      show (t.interceptors ++ b.interceptors).map catalog.interceptor? =
        (d.interceptors ++ v.interceptors).map some
      rw [List.map_append, List.map_append, ht.interceptors]
      exact congrArg _ hb.interceptors }

theorem Yields.resolves_inlined (h : b.Yields catalog all v) (hsound : Sound all) (ht : t ∈ all)
    (hdelegate : b.delegate = some t.key) : (b.inlined t).Resolves catalog v.flatten := by
  obtain ⟨t', d, hfind, hd, hv⟩ := h.exists_delegate hdelegate
  rw [find?_key hsound.distinct ht] at hfind
  cases hfind
  exact h.base.inlined hd hv

theorem Yields.delegate_of_delegate (h : b.Yields catalog all v) (hv : v.delegate = some d) :
    d.delegate = none := by
  cases hdelegate : b.delegate with
  | none =>
      rw [h.delegate_eq_none hdelegate] at hv
      contradiction
  | some target =>
      obtain ⟨t, d', -, hd', hsome⟩ := h.exists_delegate hdelegate
      obtain rfl : d = d' := Option.some.inj (hv.symm.trans hsome)
      exact hd'.delegate

theorem link_singleton (h : b.Resolves catalog v) (hdelegate : b.delegate = none) :
    link catalog [b] = .ok [v] :=
  link_eq_ok_iff.2 (.cons (h.yields hdelegate) .nil)

/-- What is made of a delegating blueprint does not depend on the steps that it names. -/
theorem Sound.flatten_set_steps {n : Nat} (hn : all[n]? = some b) (steps : List String)
    (h : Sound all) (hv : b.Yields catalog all v) (ht : t ∈ all)
    (hdelegate : b.delegate = some t.key)
    (hlink : link catalog (all.set n { b with steps }) = .ok variants) :
    variants[n]?.map Variant.flatten = some v.flatten := by
  have hne : t.key ≠ b.key := (h.delegates b (List.mem_of_getElem? hn) _ hdelegate).1
  have hset : (all.set n { b with steps })[n]? = some { b with steps } := by
    obtain ⟨hlt, -⟩ := List.getElem?_eq_some_iff.1 hn
    exact List.getElem?_set_self hlt
  obtain ⟨w, hw, hyields⟩ := exists_getElem?_of_forall₂ (link_eq_ok_iff.1 hlink) hset
  -- Written out, the two blueprints are one and the same.
  have hresolves : (b.inlined t).Resolves catalog w.flatten :=
    hyields.resolves_inlined (h.set_steps hn steps) (mem_set_steps hn steps ht hne) hdelegate
  rw [hw, Option.map_some, hresolves.unique (hv.resolves_inlined h ht hdelegate)]

/-! ## Linking -/

/-- Of blueprints that pass their check a delegating one is made into what would be made of
it with its delegate written out, be the delegates in chains or in circles.  The steps that it
names itself leave no trace in it. -/
theorem flatten_link_eq_inlined (hcheck : check all = .ok ())
    (hlink : link catalog all = .ok variants) :
    (∀ v ∈ variants, ∀ d, v.delegate = some d → d.delegate = none) ∧
    ∀ n b, all[n]? = some b → ∃ v, variants[n]? = some v ∧
      ∀ t ∈ all, b.delegate = some t.key →
        link catalog [b.inlined t] = .ok [v.flatten] ∧
        ∀ steps, check (all.set n { b with steps }) = .ok () ∧
          ∀ variants', link catalog (all.set n { b with steps }) = .ok variants' →
            variants'[n]?.map Variant.flatten = some v.flatten := by
  have hsound := check_eq_ok_iff.1 hcheck
  have hyields := link_eq_ok_iff.1 hlink
  constructor
  · intro v hv d hdelegate
    obtain ⟨n, hn⟩ := List.mem_iff_getElem?.1 hv
    obtain ⟨b, -, hyieldsv⟩ := exists_getElem?_of_forall₂ hyields.flip hn
    exact hyieldsv.delegate_of_delegate hdelegate
  · intro n b hb
    obtain ⟨v, hv, hyieldsv⟩ := exists_getElem?_of_forall₂ hyields hb
    refine ⟨v, hv, fun t ht hdelegate => ⟨?_, fun steps => ⟨?_, fun variants' hlink' => ?_⟩⟩⟩
    · exact link_singleton (hyieldsv.resolves_inlined hsound ht hdelegate) rfl
    · exact check_eq_ok_iff.2 (hsound.set_steps hb steps)
    · exact hsound.flatten_set_steps hb steps hyieldsv ht hdelegate hlink'

end

def there : Blueprint where
  name := "there"
  delegate := some ⟨"back", none⟩
  steps := ["a"]
  extensions := .ofList [("before-b", "c")]

def back : Blueprint where
  name := "back"
  delegate := some ⟨"there", none⟩
  steps := ["b"]
  extensions := .ofList [("after-b", "a"), ("before-b", "a")]

def letters : Catalog String := .ofLists [.hook "a", .hook "b", .hook "c"] []

/-- Two blueprints that delegate to each other. -/
theorem flatten_link_eq_inlined_circle :
    check [there, back] = .ok () ∧ ∃ v w, link letters [there, back] = .ok [v, w] ∧
      link letters [there.inlined back] = .ok [v.flatten] ∧
      v.flatten.stepIds = ["b"] ∧ v.flatten.extensions.keys = ["after-b", "before-b"] := by
  have hcheck : check [there, back] = .ok () := rfl
  obtain ⟨v, w, hlink⟩ : ∃ v w, link letters [there, back] = .ok [v, w] := ⟨_, _, rfl⟩
  obtain ⟨v', hv, hinlined⟩ := (flatten_link_eq_inlined hcheck hlink).2 0 there rfl
  obtain rfl : v = v' := by simpa using hv
  obtain ⟨hsame, -⟩ := hinlined back (by simp) rfl
  obtain ⟨x, hx, hids, hkeys⟩ : ∃ x, link letters [there.inlined back] = .ok [x] ∧
      x.stepIds = ["b"] ∧ x.extensions.keys = ["after-b", "before-b"] := ⟨_, rfl, rfl, rfl⟩
  obtain rfl : x = v.flatten := by simpa using hx.symm.trans hsame
  exact ⟨hcheck, v, w, hlink, hsame, hids, hkeys⟩

end Blueprint

end StepWeave

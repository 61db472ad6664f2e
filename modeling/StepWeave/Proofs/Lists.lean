import Mathlib.Data.List.Forall2
import Mathlib.Data.Set.List

/-!
# Lists in step

Lists of which the elements at each place are related, lists that are the images of
others, and lists that differ in one place.
-/

namespace StepWeave

variable {α β : Type} {l : List α} {l' : List β}

/-! ## Related lists -/

section

variable {P Q : α → β → Prop}

theorem forall₂_congr_of_mem (h : ∀ a ∈ l, ∀ b, P a b ↔ Q a b) :
    List.Forall₂ P l l' ↔ List.Forall₂ Q l l' := by
  have hmem : ∀ a ∈ l, a ∈ l := fun _ ha => ha
  constructor
  · intro hP
    exact ((List.forall₂_and_left l l').2 ⟨hmem, hP⟩).imp fun a b hab => (h a hab.1 b).1 hab.2
  · intro hQ
    exact ((List.forall₂_and_left l l').2 ⟨hmem, hQ⟩).imp fun a b hab => (h a hab.1 b).2 hab.2

theorem exists_getElem?_of_forall₂ (h : List.Forall₂ P l l') {n : Nat} {a : α}
    (ha : l[n]? = some a) : ∃ b, l'[n]? = some b ∧ P a b := by
  induction h generalizing n with
  | nil => simp at ha
  | @cons a' b' _ _ hhead _ ih =>
      cases n with
      | zero =>
          obtain rfl : a' = a := by simpa using ha
          exact ⟨b', rfl, hhead⟩
      | succ n => exact ih ha

theorem exists_of_mem_forall₂ (h : List.Forall₂ P l l') {a : α} (ha : a ∈ l) :
    ∃ b ∈ l', P a b := by
  obtain ⟨n, hn⟩ := List.mem_iff_getElem?.1 ha
  obtain ⟨b, hb, hab⟩ := exists_getElem?_of_forall₂ h hn
  exact ⟨b, List.mem_of_getElem? hb, hab⟩

theorem exists_forall₂_iff : (∃ l', List.Forall₂ P l l') ↔ ∀ a ∈ l, ∃ b, P a b := by
  induction l with
  | nil => simp
  | cons a rest ih =>
      rw [List.forall_mem_cons, ← ih]
      constructor
      · rintro ⟨l', h⟩
        obtain ⟨b, l', hhead, htail, rfl⟩ := List.forall₂_cons_left_iff.1 h
        exact ⟨⟨b, hhead⟩, ⟨l', htail⟩⟩
      · rintro ⟨⟨b, hhead⟩, ⟨l', htail⟩⟩
        exact ⟨b :: l', .cons hhead htail⟩

end

/-- Elements are read one after the other into those of the other list. -/
theorem mapM_eq_some_iff {f : α → Option β} :
    l.mapM f = some l' ↔ List.Forall₂ (fun a b => f a = some b) l l' := by
  induction l generalizing l' with
  | nil => simp [eq_comm]
  | cons a rest ih =>
      rw [List.mapM_cons, List.forall₂_cons_left_iff]
      constructor
      · intro h
        obtain ⟨b, hb, h⟩ := Option.bind_eq_some_iff.1 h
        obtain ⟨bs, hbs, h⟩ := Option.bind_eq_some_iff.1 h
        cases h
        exact ⟨b, bs, hb, ih.1 hbs, rfl⟩
      · rintro ⟨b, bs, hb, hbs, rfl⟩
        rw [hb, ih.2 hbs]
        rfl

/-! ## Images -/

theorem mapM_map_eq_some {f : β → Option α} {g : α → β} (h : ∀ a ∈ l, f (g a) = some a) :
    (l.map g).mapM f = some l := by
  rw [mapM_eq_some_iff, List.forall₂_map_left_iff, List.forall₂_same]
  exact h

theorem exists_of_map_eq_map_some {f : α → Option β} (h : l.map f = l'.map some) :
    ∀ b ∈ l', ∃ a, f a = some b := by
  intro b hb
  have hmem : some b ∈ l.map f := h ▸ List.mem_map_of_mem hb
  obtain ⟨a, -, ha⟩ := List.mem_map.1 hmem
  exact ⟨a, ha⟩

theorem exists_map_eq {f : α → β} {P : α → Prop} (h : ∀ b ∈ l', ∃ a, P a ∧ f a = b) :
    ∃ l : List α, (∀ a ∈ l, P a) ∧ l.map f = l' := by
  have hrange : l' ∈ Set.range (List.map fun a : { a // P a } => f a) := by
    rw [Set.range_list_map]
    intro b hb
    obtain ⟨a, ha, hab⟩ := h b hb
    exact ⟨⟨a, ha⟩, hab⟩
  obtain ⟨l, rfl⟩ := hrange
  refine ⟨l.map Subtype.val, List.forall_mem_map.2 fun a _ => a.2, ?_⟩
  rw [List.map_map]
  rfl

theorem map_mapIdx {γ : Type} (g : β → γ) (f : Nat → α → β) (l : List α) :
    (l.mapIdx f).map g = l.mapIdx fun i a => g (f i a) := by
  apply List.ext_getElem?
  intro i
  rw [List.getElem?_map, List.getElem?_mapIdx, List.getElem?_mapIdx, Option.map_map]
  rfl

/-! ## Searches -/

/-- A search finds what there is if that is found somewhere and nothing else is. -/
theorem findSome?_eq_some_iff_of_unique {f : α → Option β} {P : β → Prop}
    (hsound : ∀ a ∈ l, ∀ b, f a = some b → P b) (hfound : ∀ b, P b → ∃ a ∈ l, f a = some b)
    (hunique : ∀ b b', P b → P b' → b = b') {b : β} : l.findSome? f = some b ↔ P b := by
  constructor
  · intro h
    obtain ⟨a, ha, hab⟩ := List.exists_of_findSome?_eq_some h
    exact hsound a ha b hab
  · intro hP
    obtain ⟨a, ha, hab⟩ := hfound b hP
    have hsome : (l.findSome? f).isSome := List.findSome?_isSome_iff.2 ⟨a, ha, by simp [hab]⟩
    obtain ⟨b', hb'⟩ := Option.isSome_iff_exists.1 hsome
    obtain ⟨a', ha', hab'⟩ := List.exists_of_findSome?_eq_some hb'
    rw [hb', hunique b' b (hsound a' ha' b' hab') hP]

/-- A search through a list in order of size finds the smallest of what can be found. -/
theorem findSome?_eq_some_of_least {f : α → Option β} (size : α → Nat) {a : α} {b : β}
    (hsorted : l.Pairwise fun a a' => size a < size a') (ha : a ∈ l) (hab : f a = some b)
    (hleast : ∀ a' ∈ l, ∀ b', f a' = some b' → size a ≤ size a') : l.findSome? f = some b := by
  obtain ⟨before, after, rfl⟩ := List.append_of_mem ha
  have hbefore : before.findSome? f = none := by
    rw [List.findSome?_eq_none_iff]
    intro a' ha'
    refine Option.eq_none_iff_forall_ne_some.2 fun b' hb' => ?_
    have hsmaller := (List.pairwise_append.1 hsorted).2.2 a' ha' a List.mem_cons_self
    exact Nat.not_lt.2 (hleast a' (List.mem_append_left _ ha') b' hb') hsmaller
  rw [List.findSome?_append, hbefore, Option.none_or, List.findSome?_cons, hab]

/-! ## One place -/

theorem mapIdx_eq_set {f g : Nat → α → β} {index : Nat} {a : α} (ha : l[index]? = some a)
    (hfg : ∀ j ≠ index, ∀ b, f j b = g j b) :
    l.mapIdx g = (l.mapIdx f).set index (g index a) := by
  apply List.ext_getElem?
  intro j
  rw [List.getElem?_mapIdx, List.getElem?_set, List.length_mapIdx, List.getElem?_mapIdx]
  by_cases hj : index = j
  · subst hj
    have hlt := (List.getElem?_eq_some_iff.1 ha).1
    rw [if_pos rfl, if_pos hlt, ha]
    rfl
  · rw [if_neg hj]
    exact congrArg (l[j]?.map ·) (funext fun b => (hfg j (Ne.symm hj) b).symm)

theorem exists_flatten_set {m : List (List α)} {index : Nat} {part : List α}
    (h : m[index]? = some part) :
    ∃ before after, m.flatten = before ++ part ++ after ∧
      ∀ other, (m.set index other).flatten = before ++ other ++ after := by
  obtain ⟨hlt, rfl⟩ := List.getElem?_eq_some_iff.1 h
  refine ⟨(m.take index).flatten, (m.drop (index + 1)).flatten, ?_, fun other => ?_⟩
  · have hsplit : m = m.take index ++ m[index] :: m.drop (index + 1) := by
      rw [← List.drop_eq_getElem_cons hlt, List.take_append_drop]
    calc m.flatten = (m.take index ++ m[index] :: m.drop (index + 1)).flatten := by rw [← hsplit]
      _ = _ := by rw [List.flatten_append, List.flatten_cons, List.append_assoc]
  · rw [List.set_eq_take_append_cons_drop, if_pos hlt, List.flatten_append, List.flatten_cons,
      List.append_assoc]

end StepWeave

import Mathlib.Data.List.Find
import Mathlib.Data.List.Nodup

/-!
# Lists with keys

Elements are told apart by a key.  A check that goes through a list and remembers the keys it
has seen accepts the lists that are `Fresh`, and an element with a key of its own is found
wherever it stands (`find?_key_of_perm`).  Of several with one key a search from the end finds
the last (`find?_reverse_eq_some_iff_lastWith`).
-/

namespace StepWeave

variable {α κ : Type} {key : α → κ} {l l' : List α} {seen : List κ} {a : α}

/-- The keys differ from each other and from those seen before. -/
def Fresh (key : α → κ) (seen : List κ) (l : List α) : Prop :=
  (l.map key).Nodup ∧ ∀ a ∈ l, key a ∉ seen

theorem fresh_nil : Fresh key seen [] := by
  simp [Fresh]

theorem fresh_cons : Fresh key seen (a :: l) ↔ key a ∉ seen ∧ Fresh key (key a :: seen) l := by
  have hrest : (∀ b ∈ l, key b ∉ key a :: seen) ↔
      key a ∉ l.map key ∧ ∀ b ∈ l, key b ∉ seen := by
    simp only [List.mem_cons, not_or, List.mem_map, not_exists, not_and]
    exact forall₂_and
  rw [Fresh, Fresh, List.map_cons, List.nodup_cons, List.forall_mem_cons, hrest]
  tauto

theorem fresh_nil_seen : Fresh key [] l ↔ (l.map key).Nodup := by
  simp [Fresh]

section

variable [DecidableEq κ]

theorem find?_key (h : (l.map key).Nodup) (ha : a ∈ l) : l.find? (key · = key a) = some a := by
  have hsome : (l.find? (key · = key a)).isSome := List.find?_isSome.2 ⟨a, ha, by simp⟩
  obtain ⟨b, hfind⟩ := Option.isSome_iff_exists.1 hsome
  have hkey : key b = key a := by simpa using List.find?_some hfind
  rw [hfind, List.inj_on_of_nodup_map h (List.mem_of_find?_eq_some hfind) ha hkey]

theorem find?_key_of_perm (hperm : l.Perm l') (h : (l.map key).Nodup) (k : κ) :
    l.find? (key · = k) = l'.find? (key · = k) := by
  refine List.find?_eq_find?_of_perm hperm ?_
  rintro a ⟨ha, hka⟩ b ⟨hb, hkb⟩
  have hkey : key a = key b := (of_decide_eq_true hka).trans (of_decide_eq_true hkb).symm
  exact List.inj_on_of_nodup_map h ha hb hkey

end

/-! ## Last elements with a key -/

/-- The last element of `l` with the key `k` is `a`. -/
def LastWith (key : α → κ) (k : κ) (l : List α) (a : α) : Prop :=
  ∃ before after, l = before ++ a :: after ∧ key a = k ∧ ∀ b ∈ after, key b ≠ k

/-- The element `a` of `l` is the only one with its key. -/
def SoleIn (key : α → κ) (l : List α) (a : α) : Prop :=
  ∃ before after, l = before ++ a :: after ∧ ∀ b ∈ before ++ after, key b ≠ key a

theorem find?_reverse_eq_some_iff_lastWith [DecidableEq κ] {k : κ} :
    l.reverse.find? (key · = k) = some a ↔ LastWith key k l a := by
  rw [List.find?_eq_some_iff_append]
  constructor
  · rintro ⟨hkey, after, before, hsplit, hafter⟩
    refine ⟨before.reverse, after.reverse, ?_, of_decide_eq_true hkey, ?_⟩
    · rw [← l.reverse_reverse, hsplit]
      simp
    · intro b hb
      simpa using hafter b (List.mem_reverse.1 hb)
  · rintro ⟨before, after, rfl, hkey, hafter⟩
    refine ⟨decide_eq_true hkey, after.reverse, before.reverse, by simp, ?_⟩
    intro b hb
    simpa using hafter b (List.mem_reverse.1 hb)

theorem SoleIn.lastWith (h : SoleIn key l a) : LastWith key (key a) l a := by
  obtain ⟨before, after, hsplit, hothers⟩ := h
  exact ⟨before, after, hsplit, rfl, fun b hb => hothers b (List.mem_append_right before hb)⟩

theorem soleIn_of_nodup (h : (l.map key).Nodup) (ha : a ∈ l) : SoleIn key l a := by
  obtain ⟨before, after, rfl⟩ := List.append_of_mem ha
  refine ⟨before, after, rfl, fun b hb heq => ?_⟩
  have hfront : ((a :: (before ++ after)).map key).Nodup :=
    (List.perm_middle.map key).nodup_iff.1 h
  rw [List.map_cons, List.nodup_cons] at hfront
  exact hfront.1 (heq ▸ List.mem_map_of_mem hb)

end StepWeave

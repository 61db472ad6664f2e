/-!
# Finite maps with string keys

A `Keyed α` is a finite map from strings to `α`, held as its list of entries in
ascending order of the keys.  The order is part of the type, so a map has one
representation: two maps that answer every `find?` alike are equal
(`Keyed.ext_find?`).

Strings are compared by code points, which is also the order of their UTF-8
bytes.
-/

namespace StepWeave

/-- A finite map from strings, as its entries in strictly ascending key order. -/
structure Keyed (α : Type u) where
  entries : List (String × α)
  ascending : entries.Pairwise fun a b => a.1 < b.1 := by simp
deriving DecidableEq

namespace Keyed

variable {α : Type u} {β : Type v}

def empty : Keyed α := ⟨[], .nil⟩

instance : EmptyCollection (Keyed α) := ⟨empty⟩
instance : Inhabited (Keyed α) := ⟨empty⟩

/-! ## Looking up -/

/-- The value of `key` in a list of entries. -/
def lookup? (key : String) : List (String × α) → Option α
  | [] => none
  | (k, v) :: rest => if k = key then some v else lookup? key rest

/-- The value stored under `key`. -/
def find? (m : Keyed α) (key : String) : Option α := lookup? key m.entries

def contains (m : Keyed α) (key : String) : Bool := (m.find? key).isSome

def keys (m : Keyed α) : List String := m.entries.map Prod.fst

def values (m : Keyed α) : List α := m.entries.map Prod.snd

def size (m : Keyed α) : Nat := m.entries.length

def isEmpty (m : Keyed α) : Bool := m.entries.isEmpty

/-! ## Inserting -/

/-- Put an entry at its place, in the stead of an entry with the same key. -/
def insertEntry (key : String) (value : α) : List (String × α) → List (String × α)
  | [] => [(key, value)]
  | (k, v) :: rest =>
    if key < k then (key, value) :: (k, v) :: rest
    else if key = k then (key, value) :: rest
    else (k, v) :: insertEntry key value rest

theorem mem_insertEntry {key : String} {value : α} {e : String × α} {l : List (String × α)}
    (h : e ∈ insertEntry key value l) : e = (key, value) ∨ e ∈ l := by
  induction l with
  | nil => simpa [insertEntry] using h
  | cons hd rest ih =>
    obtain ⟨k, v⟩ := hd
    simp only [insertEntry] at h
    split at h
    · simpa using h
    · split at h
      · rcases List.mem_cons.1 h with h | h
        · exact .inl h
        · exact .inr (List.mem_cons_of_mem _ h)
      · rcases List.mem_cons.1 h with h | h
        · exact .inr (h ▸ List.mem_cons_self)
        · exact (ih h).imp id (List.mem_cons_of_mem _)

theorem lt_of_not_lt_of_ne {a b : String} (h : ¬a < b) (hne : a ≠ b) : b < a :=
  String.not_le.1 fun hle => hne (String.le_antisymm hle (String.not_lt.1 h))

theorem pairwise_insertEntry {key : String} {value : α} {l : List (String × α)}
    (h : l.Pairwise fun a b => a.1 < b.1) :
    (insertEntry key value l).Pairwise fun a b => a.1 < b.1 := by
  induction l with
  | nil => simp [insertEntry]
  | cons hd rest ih =>
    obtain ⟨k, v⟩ := hd
    obtain ⟨hk, hrest⟩ := List.pairwise_cons.1 h
    simp only [insertEntry]
    split
    next hlt =>
      refine List.pairwise_cons.2 ⟨fun e he => ?_, h⟩
      rcases List.mem_cons.1 he with rfl | he
      · exact hlt
      · exact String.lt_trans hlt (hk e he)
    next hlt =>
      split
      next heq => exact List.pairwise_cons.2 ⟨fun e he => heq ▸ hk e he, hrest⟩
      next hne =>
        refine List.pairwise_cons.2 ⟨fun e he => ?_, ih hrest⟩
        rcases mem_insertEntry he with rfl | he
        · exact lt_of_not_lt_of_ne hlt hne
        · exact hk e he

/-- Store `value` under `key`, replacing what was stored there. -/
def insert (m : Keyed α) (key : String) (value : α) : Keyed α :=
  ⟨insertEntry key value m.entries, pairwise_insertEntry m.ascending⟩

/-- The entries of a list, a later one replacing an earlier one with its key. -/
def ofList (l : List (String × α)) : Keyed α :=
  l.foldl (fun m e => m.insert e.1 e.2) empty

/-- The entries of both maps, those of `upper` winning. -/
def overlay (lower upper : Keyed α) : Keyed α :=
  upper.entries.foldl (fun m e => m.insert e.1 e.2) lower

/-! ## Removing and mapping -/

/-- Remove the entry of `key`, if there is one. -/
def erase (m : Keyed α) (key : String) : Keyed α :=
  ⟨m.entries.filter fun e => e.1 ≠ key, m.ascending.filter _⟩

/-- Apply `f` to every value. -/
def map (f : α → β) (m : Keyed α) : Keyed β :=
  ⟨m.entries.map fun e => (e.1, f e.2), List.pairwise_map.2 m.ascending⟩

/-! ## Laws of look-up -/

@[simp] theorem find?_empty (key : String) : (empty : Keyed α).find? key = none := rfl

theorem lookup?_insertEntry (key key' : String) (value : α) (l : List (String × α)) :
    lookup? key' (insertEntry key value l) =
      if key = key' then some value else lookup? key' l := by
  induction l with
  | nil => simp [insertEntry, lookup?]
  | cons hd rest ih =>
    obtain ⟨k, v⟩ := hd
    simp only [insertEntry]
    split
    · simp [lookup?]
    · split
      next heq => subst heq; by_cases h : key = key' <;> simp [lookup?, h]
      next hne =>
        by_cases h : k = key'
        · subst h; simp [lookup?, hne]
        · simp [lookup?, h, ih]

/-- After storing under `key`, that key holds the value and the others what they held. -/
theorem find?_insert (m : Keyed α) (key key' : String) (value : α) :
    (m.insert key value).find? key' = if key = key' then some value else m.find? key' :=
  lookup?_insertEntry key key' value m.entries

/-- Of values stored one after the other the last one under a key counts. -/
theorem find?_foldl_insert_key (key : β → String) (value : β → α) (l : List β)
    (m : Keyed α) (k : String) :
    (l.foldl (fun m b => m.insert (key b) (value b)) m).find? k =
      ((l.reverse.find? (key · = k)).map value).or (m.find? k) := by
  induction l generalizing m with
  | nil => rfl
  | cons b rest ih =>
    rw [List.foldl_cons, ih, find?_insert, List.reverse_cons, List.find?_append, Option.map_or,
      Option.or_assoc]
    by_cases h : key b = k <;> simp [h]

theorem lookup?_filter (key key' : String) (l : List (String × α)) :
    lookup? key' (l.filter fun e => e.1 ≠ key) =
      if key = key' then none else lookup? key' l := by
  induction l with
  | nil => simp [lookup?]
  | cons hd rest ih =>
    obtain ⟨k, v⟩ := hd
    by_cases hk : k = key
    · subst hk
      by_cases h : k = key' <;> simp_all [lookup?]
    · by_cases h : k = key'
      · subst h; simp [lookup?, hk, Ne.symm hk]
      · simp only [ne_eq, decide_not] at ih
        simp [lookup?, hk, h, ih]

theorem find?_erase (m : Keyed α) (key key' : String) :
    (m.erase key).find? key' = if key = key' then none else m.find? key' :=
  lookup?_filter key key' m.entries

/-! ## One representation -/

theorem lookup?_eq_none {key : String} {l : List (String × α)}
    (h : ∀ e ∈ l, e.1 ≠ key) : lookup? key l = none := by
  induction l with
  | nil => rfl
  | cons hd rest ih =>
    obtain ⟨k, v⟩ := hd
    have hk : k ≠ key := h (k, v) List.mem_cons_self
    simp [lookup?, hk, ih fun e he => h e (List.mem_cons_of_mem _ he)]

/-- An entry list whose keys are all above `key` holds nothing under it. -/
theorem lookup?_eq_none_of_lt {key : String} {l : List (String × α)}
    (h : ∀ e ∈ l, key < e.1) : lookup? key l = none :=
  lookup?_eq_none fun e he heq => String.lt_irrefl key (heq ▸ h e he)

theorem entries_eq_of_lookup? {l l' : List (String × α)}
    (hl : l.Pairwise fun a b => a.1 < b.1) (hl' : l'.Pairwise fun a b => a.1 < b.1)
    (h : ∀ key, lookup? key l = lookup? key l') : l = l' := by
  induction l generalizing l' with
  | nil =>
    cases l' with
    | nil => rfl
    | cons hd' rest' => simpa [lookup?] using h hd'.1
  | cons hd rest ih =>
    obtain ⟨k, v⟩ := hd
    obtain ⟨hk, hrest⟩ := List.pairwise_cons.1 hl
    cases l' with
    | nil => simpa [lookup?] using h k
    | cons hd' rest' =>
      obtain ⟨k', v'⟩ := hd'
      obtain ⟨hk', hrest'⟩ := List.pairwise_cons.1 hl'
      have hkk : k = k' := by
        apply Classical.byContradiction
        intro hne
        by_cases hlt : k < k'
        · have hn : lookup? k rest' = none :=
            lookup?_eq_none_of_lt fun e he => String.lt_trans hlt (hk' e he)
          simpa [lookup?, Ne.symm hne, hn] using h k
        · have hlt := lt_of_not_lt_of_ne hlt hne
          have hn : lookup? k' rest = none :=
            lookup?_eq_none_of_lt fun e he => String.lt_trans hlt (hk e he)
          simpa [lookup?, hne, hn] using h k'
      subst hkk
      have hv : v = v' := by simpa [lookup?] using h k
      subst hv
      congr 1
      refine ih hrest hrest' fun key => ?_
      by_cases hkey : k = key
      · subst hkey
        rw [lookup?_eq_none_of_lt hk, lookup?_eq_none_of_lt hk']
      · simpa [lookup?, hkey] using h key

theorem ext_find? {m m' : Keyed α} (h : ∀ key, m.find? key = m'.find? key) : m = m' := by
  obtain ⟨l, hl⟩ := m
  obtain ⟨l', hl'⟩ := m'
  cases entries_eq_of_lookup? hl hl' h
  rfl

/-- What is stored last under a key replaces what was stored before. -/
theorem insert_insert (m : Keyed α) (key : String) (value value' : α) :
    (m.insert key value).insert key value' = m.insert key value' := by
  apply ext_find?
  intro key'
  rw [find?_insert, find?_insert, find?_insert]
  split <;> rfl

/-! ## Overlaying and mapping -/

/-- Storing entries in ascending order adds them all, in the stead of what was there. -/
theorem find?_foldl_insert {l : List (String × α)} (h : l.Pairwise fun a b => a.1 < b.1)
    (m : Keyed α) (key : String) :
    (l.foldl (fun m e => m.insert e.1 e.2) m).find? key = (lookup? key l).or (m.find? key) := by
  induction l generalizing m with
  | nil => rfl
  | cons hd rest ih =>
    obtain ⟨k, v⟩ := hd
    obtain ⟨hk, hrest⟩ := List.pairwise_cons.1 h
    rw [List.foldl_cons, ih hrest, find?_insert, lookup?]
    split
    next heq =>
      subst heq
      rw [lookup?_eq_none_of_lt hk]
      rfl
    next => rfl

theorem find?_overlay (lower upper : Keyed α) (key : String) :
    (lower.overlay upper).find? key = (upper.find? key).or (lower.find? key) :=
  find?_foldl_insert upper.ascending lower key

theorem mem_values_overlay {lower upper : Keyed α} {x : α}
    (h : x ∈ (lower.overlay upper).values) : x ∈ lower.values ∨ x ∈ upper.values := by
  unfold overlay at h
  obtain ⟨l, hl⟩ := upper
  show x ∈ lower.values ∨ x ∈ l.map Prod.snd
  induction l generalizing lower with
  | nil => exact .inl h
  | cons e rest ih =>
    rw [List.map_cons, List.mem_cons]
    obtain hlower | hrest := ih (List.pairwise_cons.1 hl).2 h
    · obtain ⟨e', he', rfl⟩ := List.mem_map.1 hlower
      obtain rfl | hold := mem_insertEntry he'
      · exact .inr (.inl rfl)
      · exact .inl (List.mem_map_of_mem hold)
    · exact .inr (.inr hrest)

theorem values_map (f : α → β) (m : Keyed α) : (m.map f).values = m.values.map f := by
  simp [values, map]

theorem lookup?_map (f : α → β) (key : String) (l : List (String × α)) :
    lookup? key (l.map fun e => (e.1, f e.2)) = (lookup? key l).map f := by
  induction l with
  | nil => rfl
  | cons hd rest ih =>
    obtain ⟨k, v⟩ := hd
    by_cases h : k = key <;> simp [lookup?, h, ih]

theorem find?_map (f : α → β) (m : Keyed α) (key : String) :
    (m.map f).find? key = (m.find? key).map f :=
  lookup?_map f key m.entries

theorem ofList_entries (m : Keyed α) : ofList m.entries = m := by
  apply ext_find?
  intro key
  rw [ofList, find?_foldl_insert m.ascending, find?_empty, Option.or_none]
  rfl

theorem map_ofList {f : α → β} {l : List (String × α)} {m : Keyed β}
    (h : (l.map fun e => (e.1, f e.2)) = m.entries) : (ofList l).map f = m := by
  have hl : l.Pairwise fun a b => a.1 < b.1 := by
    have hm := m.ascending
    rw [← h, List.pairwise_map] at hm
    exact hm
  have heq : ofList l = ⟨l, hl⟩ := ofList_entries ⟨l, hl⟩
  rw [heq]
  cases m
  cases h
  rfl

theorem map_overlay (f : α → β) (lower upper : Keyed α) :
    (lower.overlay upper).map f = (lower.map f).overlay (upper.map f) := by
  apply ext_find?
  intro key
  rw [find?_map, find?_overlay, find?_overlay, find?_map, find?_map, Option.map_or]

/-! ## Keys and totals -/

theorem lookup?_isSome_iff (key : String) (l : List (String × α)) :
    (lookup? key l).isSome ↔ key ∈ l.map Prod.fst := by
  induction l with
  | nil => simp [lookup?]
  | cons hd rest ih =>
    obtain ⟨k, v⟩ := hd
    by_cases h : k = key
    · simp [lookup?, h]
    · rw [lookup?, if_neg h, ih, List.map_cons, List.mem_cons]
      exact ⟨.inr, fun hmem => hmem.resolve_left (Ne.symm h)⟩

theorem contains_iff (m : Keyed α) (key : String) : m.contains key = true ↔ key ∈ m.keys :=
  lookup?_isSome_iff key m.entries

theorem mem_keys_iff (m : Keyed α) (key : String) : key ∈ m.keys ↔ ∃ v, m.find? key = some v := by
  rw [← contains_iff, contains, Option.isSome_iff_exists]

theorem pairwise_keys (m : Keyed α) : m.keys.Pairwise (· < ·) :=
  List.pairwise_map.2 m.ascending

theorem mem_keys_insert (m : Keyed α) (key : String) (value : α) (key' : String) :
    key' ∈ (m.insert key value).keys ↔ key' = key ∨ key' ∈ m.keys := by
  rw [← contains_iff, ← contains_iff, contains, contains, find?_insert]
  by_cases h : key = key'
  · simp [h]
  · simp [h, Ne.symm h]

/-- An entry with a new key is put in at one place. -/
theorem exists_insertEntry_eq {key : String} {l : List (String × α)}
    (h : key ∉ l.map Prod.fst) (value : α) :
    ∃ front back, l = front ++ back ∧
      insertEntry key value l = front ++ (key, value) :: back := by
  induction l with
  | nil => exact ⟨[], [], rfl, rfl⟩
  | cons hd rest ih =>
    obtain ⟨k, v⟩ := hd
    rw [List.map_cons, List.mem_cons, not_or] at h
    simp only [insertEntry, if_neg h.1]
    split
    · exact ⟨[], (k, v) :: rest, rfl, rfl⟩
    · obtain ⟨front, back, hrest, hinsert⟩ := ih h.2
      exact ⟨(k, v) :: front, back, by rw [hrest, List.cons_append],
        by rw [hinsert, List.cons_append]⟩

def totalOf (f : α → Nat) (l : List (String × α)) : Nat := l.foldr (fun e n => f e.2 + n) 0

/-- What a function of the values adds up to. -/
def total (f : α → Nat) (m : Keyed α) : Nat := totalOf f m.entries

theorem totalOf_cons (f : α → Nat) (e : String × α) (l : List (String × α)) :
    totalOf f (e :: l) = f e.2 + totalOf f l := rfl

theorem totalOf_insertEntry (f : α → Nat) (key : String) (value : α) {l : List (String × α)}
    (h : l.Pairwise fun a b => a.1 < b.1) :
    totalOf f (insertEntry key value l) + ((lookup? key l).map f).getD 0 =
      totalOf f l + f value := by
  induction l with
  | nil => simp [insertEntry, lookup?, totalOf]
  | cons hd rest ih =>
    obtain ⟨k, v⟩ := hd
    obtain ⟨hk, hrest⟩ := List.pairwise_cons.1 h
    simp only [insertEntry]
    split
    next hlt =>
      -- Every key of the list is above `key`, so nothing is replaced.
      have hnone : lookup? key ((k, v) :: rest) = none := by
        refine lookup?_eq_none_of_lt fun e he => ?_
        rcases List.mem_cons.1 he with rfl | he
        · exact hlt
        · exact String.lt_trans hlt (hk e he)
      rw [hnone, totalOf_cons]
      simp only [Option.map_none, Option.getD_none]
      omega
    next =>
      split
      next heq =>
        subst heq
        simp only [lookup?, if_pos, totalOf_cons, Option.map_some, Option.getD_some]
        omega
      next hne =>
        have hrest := ih hrest
        simp only [lookup?, if_neg (Ne.symm hne), totalOf_cons]
        omega

/-- Storing a value adds what it counts for and takes off what was stored before. -/
theorem total_insert (f : α → Nat) (m : Keyed α) (key : String) (value : α) :
    (m.insert key value).total f + ((m.find? key).map f).getD 0 = m.total f + f value :=
  totalOf_insertEntry f key value m.ascending

end Keyed

end StepWeave

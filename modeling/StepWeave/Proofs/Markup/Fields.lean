import StepWeave.Markup.Fields
import StepWeave.Proofs.Lists
import StepWeave.Proofs.Markup.Number

/-!
# Written mappings

Texts, lists and mappings are read back from their written forms.  A reader of mappings may
moreover be indifferent to whether a field with its default is written or left out
(`Faithful`); then it reads a value back however many of these fields are left out
(`Faithful.read_of_gives`).
-/

namespace StepWeave.Markup

/-! ## Scalars and collections -/

namespace Tree

@[simp] theorem text?_ofText (s : String) : (ofText s).text? = some s := rfl

@[simp] theorem optionText?_ofOption (s : Option String) : (ofOption s).optionText? = some s := by
  cases s <;> rfl

@[simp] theorem items?_ofList (items : List Tree) : (ofList items).items? = some items := rfl

@[simp] theorem entries?_ofFields (fields : Fields Tree) :
    (ofFields fields).entries? = some fields :=
  mapM_map_eq_some fun _ _ => rfl

end Tree

namespace Content

@[simp] theorem ofTree?_ofText (s : String) : ofTree? (.ofText s) = some (.text s) := by
  simp [Tree.ofText, ofTree?, ofScalar?]

@[simp] theorem text?_text (s : String) : (text s).text? = some s := rfl

@[simp] theorem ofTree?_null : ofTree? .null = some .null := by
  simp [Tree.null, ofTree?, ofScalar?, ofPlain?, Tree.isNullWord]

theorem exists_ofTree?_ofOption (s : Option String) :
    ∃ content, ofTree? (.ofOption s) = some content ∧ content.optionText? = some s := by
  cases s with
  | none => exact ⟨_, ofTree?_null, rfl⟩
  | some s => exact ⟨_, ofTree?_ofText s, rfl⟩

theorem exists_ofTree?_ofNat (n : UInt64) :
    ∃ content, ofTree? (.ofNat n.toNat) = some content ∧ content.uint64? = some n := by
  have hsize : n.toNat < UInt64.size := n.toNat_lt
  refine ⟨.count n.toNat, ?_, ?_⟩
  · rw [Tree.ofNat, ofTree?]
    exact ofPlain?_toString hsize
  · rw [uint64?, if_pos hsize, UInt64.ofNat_toNat]

end Content

/-! ## Fields -/

namespace Fields

variable {α β : Type} {fields before after : Fields α} {key name : String} {value : α}
  {read : α → Option β} {default b : β}

theorem exists_of_required (h : required fields name read = some b) :
    ∃ field ∈ fields, field.1 = name ∧ read field.2 = some b := by
  unfold required at h
  split at h
  next field heq =>
    obtain ⟨hmem, hname⟩ := List.mem_filter.1 (heq ▸ List.mem_singleton_self field)
    exact ⟨field, hmem, of_decide_eq_true hname, h⟩
  next => cases h

theorem required_insert (h : key ≠ name) :
    required (before ++ (key, value) :: after) name read =
      required (before ++ after) name read := by
  simp [required, h]

theorem optional_insert_of_ne (h : key ≠ name) :
    optional (before ++ (key, value) :: after) name read default =
      optional (before ++ after) name read default := by
  simp [optional, h]

/-- A field with a name of its own makes no difference if it has its default. -/
theorem optional_insert (hlack : ∀ f ∈ before ++ after, f.1 ≠ key)
    (h : read value = some default) :
    optional (before ++ (key, value) :: after) key read default =
      optional (before ++ after) key read default := by
  obtain ⟨hbefore, hafter⟩ := List.forall_mem_append.1 hlack
  have hbefore : before.filter (·.1 = key) = [] := by simpa using hbefore
  have hafter : after.filter (·.1 = key) = [] := by simpa using hafter
  simp [optional, hbefore, hafter, h]

end Fields

/-! ## Fields that are left out -/

/-- The fields of `part` are those of `full` in their order, some left out that have their
default. -/
inductive Fields.Omits (defaults : Fields Tree) : (full part : Fields Tree) → Prop where
  | nil : Omits defaults [] []
  | keep {full part : Fields Tree} (field : String × Tree) (rest : Omits defaults full part) :
      Omits defaults (field :: full) (field :: part)
  | leave {full part : Fields Tree} {field : String × Tree} (hdefault : field ∈ defaults)
      (rest : Omits defaults full part) : Omits defaults (field :: full) part

theorem Fields.omits_cons_nil_iff {defaults full : Fields Tree} {field : String × Tree} :
    Omits defaults (field :: full) [] ↔ field ∈ defaults ∧ Omits defaults full [] := by
  constructor
  · rintro (_ | _ | ⟨hdefault, rest⟩)
    exact ⟨hdefault, rest⟩
  · rintro ⟨hdefault, rest⟩
    exact .leave hdefault rest

theorem Fields.omits_cons_cons_iff {defaults full part : Fields Tree}
    {field field' : String × Tree} : Omits defaults (field :: full) (field' :: part) ↔
      field = field' ∧ Omits defaults full part ∨
        field ∈ defaults ∧ Omits defaults full (field' :: part) := by
  constructor
  · rintro (_ | ⟨_, rest⟩ | ⟨hdefault, rest⟩)
    · exact .inl ⟨rfl, rest⟩
    · exact .inr ⟨hdefault, rest⟩
  · rintro (⟨rfl, rest⟩ | ⟨hdefault, rest⟩)
    · exact .keep field rest
    · exact .leave hdefault rest

instance Fields.decidableOmits (defaults : Fields Tree) :
    (full part : Fields Tree) → Decidable (Omits defaults full part)
  | [], [] => isTrue .nil
  | [], _ :: _ => isFalse nofun
  | _ :: full, [] =>
    have := decidableOmits defaults full []
    decidable_of_iff' _ omits_cons_nil_iff
  | _ :: full, field' :: part =>
    have := decidableOmits defaults full part
    have := decidableOmits defaults full (field' :: part)
    decidable_of_iff' _ omits_cons_cons_iff

theorem Fields.omits_self (defaults fields : Fields Tree) : Omits defaults fields fields := by
  induction fields with
  | nil => exact .nil
  | cons field rest ih => exact .keep field ih

/-- The tree is a mapping to `fields`, some left out that have their default. -/
def Tree.Gives (t : Tree) (defaults fields : Fields Tree) : Prop :=
  ∃ part, t.entries? = some part ∧ Fields.Omits defaults fields part

instance (t : Tree) (defaults fields : Fields Tree) : Decidable (t.Gives defaults fields) :=
  decidable_of_iff (∃ part ∈ t.entries?, Fields.Omits defaults fields part) Iff.rfl

theorem Tree.gives_ofFields (defaults fields : Fields Tree) :
    (Tree.ofFields fields).Gives defaults fields :=
  ⟨fields, entries?_ofFields fields, Fields.omits_self defaults fields⟩

/-- A reader of mappings undoes a writer, regards no more of a mapping than its entries, and
takes a field that is left out for one that is written with its default.  Which fields these
are depends on the value read. -/
structure Faithful {α : Type} (read : Tree → Option α) (write : α → Tree)
    (defaults : α → Fields Tree) : Prop where
  read_write : ∀ a, read (write a) = some a
  read_congr : ∀ t t', t.entries? = t'.entries? → read t = read t'
  read_insert : ∀ a t t' before after key value, (key, value) ∈ defaults a →
    (∀ f ∈ before ++ after, f.1 ≠ key) →
    t.entries? = some (before ++ (key, value) :: after) → t'.entries? = some (before ++ after) →
    (read t = some a ↔ read t' = some a)

namespace Faithful

variable {α : Type} {read : Tree → Option α} {write : α → Tree} {defaults : α → Fields Tree}
  {a : α} {full part : Fields Tree} {t t' : Tree}

theorem read_of_omits (h : Faithful read write defaults) (homits : (defaults a).Omits full part)
    (pre : Fields Tree) (hnodup : ((pre ++ full).map Prod.fst).Nodup)
    (ht : t.entries? = some (pre ++ full))
    (hread : read t = some a) (ht' : t'.entries? = some (pre ++ part)) : read t' = some a := by
  induction homits generalizing pre t with
  | nil => rw [← h.read_congr t t' (ht.trans ht'.symm), hread]
  | @keep full part field rest ih =>
      rw [List.append_cons] at hnodup ht ht'
      exact ih (pre ++ [field]) hnodup ht hread ht'
  | @leave full part field hdefault rest ih =>
      rw [(List.perm_middle.map Prod.fst).nodup_iff, List.map_cons, List.nodup_cons] at hnodup
      have hlack : ∀ f ∈ pre ++ full, f.1 ≠ field.1 := fun f hf heq =>
        hnodup.1 (heq ▸ List.mem_map_of_mem hf)
      have hfull := Tree.entries?_ofFields (pre ++ full)
      have hwithout : read (.ofFields (pre ++ full)) = some a :=
        (h.read_insert a t _ pre full field.1 field.2 hdefault hlack ht hfull).1 hread
      exact ih pre hnodup.2 hfull hwithout ht'

/-- A value is read back from its fields, however many are left out that have their default. -/
theorem read_of_gives (h : Faithful read write defaults) (hnodup : (full.map Prod.fst).Nodup)
    (hread : read (.ofFields full) = some a) (ht : t.Gives (defaults a) full) :
    read t = some a := by
  obtain ⟨part, ht, homits⟩ := ht
  exact h.read_of_omits homits [] hnodup (Tree.entries?_ofFields full) hread ht

end Faithful

end StepWeave.Markup

import StepWeave.Blueprint.Markup
import StepWeave.Proofs.Markup.Fields

/-!
# Blueprints read back from markup

Blueprints are read back from their written forms, with or without the fields that have their
defaults.  A delegate is a mapping of its own, which may leave out its layer.
-/

namespace StepWeave

open Markup

theorem readTexts_ofList (texts : List String) :
    readTexts (.ofList (texts.map .ofText)) = some texts :=
  mapM_map_eq_some fun _ _ => rfl

/-! ## Delegates -/

namespace VariantKey

def defaults : Fields Tree := [("layer", .null)]

def fields (k : VariantKey) : Fields Tree :=
  [("pipeline", .ofText k.name), ("layer", .ofOption k.layer)]

theorem ofTree?_toTree (k : VariantKey) : ofTree? k.toTree = some k := by
  rw [toTree, ofTree?, Tree.entries?_ofFields]
  simp [Fields.required, Fields.optional]

theorem faithful : Faithful ofTree? toTree fun _ => defaults where
  read_write := ofTree?_toTree
  read_congr t t' h := by rw [ofTree?, ofTree?, h]
  read_insert k t t' before after key value hdefault hlack ht ht' := by
    obtain ⟨rfl, rfl⟩ : key = "layer" ∧ value = .null := by simpa [defaults] using hdefault
    rw [ofTree?, ofTree?, ht, ht']
    simp (disch := first | assumption | rfl | decide) only [Option.bind_eq_bind,
      Option.bind_some, Fields.required_insert, Fields.optional_insert]

/-- The tree gives the variant, its layer left out if there is none. -/
def Written (k : VariantKey) (t : Tree) : Prop := t.Gives defaults k.fields

instance (k : VariantKey) (t : Tree) : Decidable (k.Written t) :=
  inferInstanceAs (Decidable (t.Gives defaults k.fields))

theorem ofTree?_of_written {k : VariantKey} {t : Tree} (h : k.Written t) : ofTree? t = some k :=
  faithful.read_of_gives (by simp) k.ofTree?_toTree h

end VariantKey

/-! ## Blueprints -/

namespace Blueprint

def defaults : Fields Tree :=
  [("layer", .null), ("delegate", .null), ("steps", .ofList []), ("extensions", .ofFields []),
    ("interceptors", .ofList [])]

/-- The fields of a blueprint, its delegate given as a tree. -/
def fields (b : Blueprint) (delegate : Tree) : Fields Tree :=
  [("name", .ofText b.name), ("layer", .ofOption b.layer), ("delegate", delegate),
    ("steps", .ofList (b.steps.map .ofText)),
    ("extensions", .ofFields (b.extensions.entries.map fun e => (e.1, .ofText e.2))),
    ("interceptors", .ofList (b.interceptors.map .ofText))]

theorem readDelegate_null : readDelegate .null = some none := by
  rw [readDelegate, show Tree.null.optionText? = some none from rfl]

theorem readDelegate_of_some {t : Tree} {k : VariantKey} (h : VariantKey.ofTree? t = some k) :
    readDelegate t = some (some k) := by
  cases t with
  | scalar tag plain text =>
      -- At most an empty mapping, which has no name.
      have hentries : (Tree.scalar tag plain text).entries? = some [] ∨
          (Tree.scalar tag plain text).entries? = none := ite_eq_or_eq ..
      obtain hentries | hentries := hentries
      all_goals
        rw [VariantKey.ofTree?, hentries] at h
        cases h
  | sequence _ _ | skipped => cases h
  | mapping tag entries => exact congrArg (Option.map some) h

theorem readExtensions_ofFields (m : Keyed String) :
    readExtensions (.ofFields (m.entries.map fun e => (e.1, .ofText e.2))) = some m := by
  have hpairs : (m.entries.map fun e => (e.1, Tree.ofText e.2)).mapM
      (fun e => e.2.text?.map (e.1, ·)) = some m.entries := mapM_map_eq_some fun _ _ => rfl
  rw [readExtensions, Tree.entries?_ofFields]
  simp only [Option.bind_eq_bind, Option.bind_some, hpairs, Keyed.ofList_entries]
  rfl

theorem ofTree?_ofFields {b : Blueprint} {delegate : Tree}
    (hdelegate : readDelegate delegate = some b.delegate) :
    ofTree? (.ofFields (b.fields delegate)) = some b := by
  rw [ofTree?, Tree.entries?_ofFields]
  simp [fields, Fields.required, Fields.optional, hdelegate, readTexts_ofList,
    readExtensions_ofFields]

/-- The tree gives the delegate, or stands for its absence. -/
def DelegateWritten (delegate : Option VariantKey) (t : Tree) : Prop :=
  match delegate with
  | none => t = .null
  | some k => k.Written t

theorem readDelegate_of_written {delegate : Option VariantKey} {t : Tree}
    (h : DelegateWritten delegate t) : readDelegate t = some delegate := by
  cases delegate with
  | none => exact h ▸ readDelegate_null
  | some k => exact readDelegate_of_some (VariantKey.ofTree?_of_written h)

theorem delegateWritten_elim (delegate : Option VariantKey) :
    DelegateWritten delegate (delegate.elim .null VariantKey.toTree) := by
  cases delegate with
  | none => rfl
  | some k => exact Tree.gives_ofFields _ k.fields

theorem faithful : Faithful ofTree? toTree fun _ => defaults where
  read_write b := ofTree?_ofFields (readDelegate_of_written (delegateWritten_elim b.delegate))
  read_congr t t' h := by rw [ofTree?, ofTree?, h]
  read_insert b t t' before after key value hdefault hlack ht ht' := by
    obtain ⟨rfl, rfl⟩ | ⟨rfl, rfl⟩ | ⟨rfl, rfl⟩ | ⟨rfl, rfl⟩ | ⟨rfl, rfl⟩ :
        key = "layer" ∧ value = .null ∨ key = "delegate" ∧ value = .null ∨
          key = "steps" ∧ value = .ofList [] ∨ key = "extensions" ∧ value = .ofFields [] ∨
          key = "interceptors" ∧ value = .ofList [] := by simpa [defaults] using hdefault
    all_goals
      rw [ofTree?, ofTree?, ht, ht']
      simp (disch := first | assumption | rfl | decide) only [Option.bind_eq_bind,
        Option.bind_some, Fields.required_insert, Fields.optional_insert,
        Fields.optional_insert_of_ne]

/-- The tree gives the blueprint, where it or its delegate may leave out fields that have their
default. -/
def Written (b : Blueprint) (t : Tree) : Prop :=
  ∃ delegate, DelegateWritten b.delegate delegate ∧ t.Gives defaults (b.fields delegate)

theorem written_toTree (b : Blueprint) : b.Written b.toTree :=
  ⟨_, delegateWritten_elim b.delegate, Tree.gives_ofFields _ _⟩

theorem ofTree?_of_written {b : Blueprint} {t : Tree} (h : b.Written t) : ofTree? t = some b := by
  obtain ⟨delegate, hdelegate, hgives⟩ := h
  exact faithful.read_of_gives (by simp [fields])
    (ofTree?_ofFields (readDelegate_of_written hdelegate)) hgives

/-! ## Lists of blueprints -/

def listDefaults : Fields Tree := [("pipelines", .ofList [])]

/-- The tree gives the blueprints, where any part may leave out fields that have their default. -/
def ListWritten (all : List Blueprint) (t : Tree) : Prop :=
  ∃ trees, List.Forall₂ Written all trees ∧ t.Gives listDefaults [("pipelines", .ofList trees)]

theorem listOfTree?_ofFields {all : List Blueprint} {trees : List Tree}
    (h : List.Forall₂ (fun b t => ofTree? t = some b) all trees) :
    listOfTree? (.ofFields [("pipelines", .ofList trees)]) = some all := by
  rw [listOfTree?, Tree.entries?_ofFields]
  simp [Fields.optional, mapM_eq_some_iff.2 h.flip]

theorem listFaithful : Faithful listOfTree? listToTree fun _ => listDefaults where
  read_write all := by
    refine listOfTree?_ofFields ?_
    rw [List.forall₂_map_right_iff, List.forall₂_same]
    exact fun b _ => faithful.read_write b
  read_congr t t' h := by rw [listOfTree?, listOfTree?, h]
  read_insert all t t' before after key value hdefault hlack ht ht' := by
    obtain ⟨rfl, rfl⟩ : key = "pipelines" ∧ value = .ofList [] := by
      simpa [listDefaults] using hdefault
    rw [listOfTree?, listOfTree?, ht, ht']
    simp only [Option.bind_eq_bind, Option.bind_some]
    rw [Fields.optional_insert hlack]
    rfl

theorem listWritten_listToTree (all : List Blueprint) : ListWritten all (listToTree all) := by
  refine ⟨_, ?_, Tree.gives_ofFields _ _⟩
  rw [List.forall₂_map_right_iff, List.forall₂_same]
  exact fun b _ => b.written_toTree

theorem listOfTree?_of_written {all : List Blueprint} {t : Tree} (h : ListWritten all t) :
    listOfTree? t = some all := by
  obtain ⟨trees, htrees, hgives⟩ := h
  have hfull := listOfTree?_ofFields (htrees.imp fun _ _ => ofTree?_of_written)
  exact listFaithful.read_of_gives (by simp) hfull hgives

theorem ofText_eq_ok_iff {text : String} {all : List Blueprint} : ofText text = .ok all ↔
    (Tree.read demand text).bind listOfTree? = some all ∧ check all = .ok () := by
  rw [ofText, readText]
  cases (Tree.read demand text).bind listOfTree? with
  | none => simp
  | some all' =>
      cases hcheck : check all' with
      | error cause => grind
      | ok => grind

end Blueprint

end StepWeave

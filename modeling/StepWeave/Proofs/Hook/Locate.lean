import StepWeave.Proofs.Hook.Forms

/-!
# What a hook names

A hook is located by what it names: the step with this id, or else what its two readings
say, the one with the keyword first before the other (`locate_exact`).  The id beside a keyword
is looked for ignoring case, so a step that differs from an earlier one in case alone is not
named that way (`locate_written`).
-/

namespace StepWeave

namespace Hook

/-- The first step of which the id has the property. -/
def FirstWith (P : String → Prop) (ids : List String) (index : Nat) : Prop :=
  (∃ id, ids[index]? = some id ∧ P id) ∧ ∀ j < index, ∀ id, ids[j]? = some id → ¬ P id

/-- The reading is about the step with this id. -/
def Reading.Matches (r : Reading) (id : String) : Prop :=
  sameIgnoringCase id.toList r.target = true

/-- What the hook names among the steps with the given ids. -/
inductive Names (hook : String) (ids : List String) : Site → Prop where
  | step {index : Nat} (hfirst : FirstWith (· = hook) ids index) : Names hook ids ⟨index, .after⟩
  | keywordFirst {r : Reading} {index : Nat} (hnot : hook ∉ ids)
      (hread : ReadsFirst hook.toList r) (hfirst : FirstWith r.Matches ids index) :
      Names hook ids ⟨index, r.placement⟩
  | keywordLast {r : Reading} {index : Nat} (hnot : hook ∉ ids)
      (hother : ∀ r', ReadsFirst hook.toList r' → ∀ id ∈ ids, ¬ r'.Matches id)
      (hread : ReadsLast hook.toList r) (hfirst : FirstWith r.Matches ids index) :
      Names hook ids ⟨index, r.placement⟩

/-- Locating a hook by the patterns for its two forms. -/
def locateByForms (hook : String) (ids : List String) : Option Site :=
  match ids.findIdx? (· = hook) with
  | some index => some ⟨index, .after⟩
  | none =>
    [readBy firstForm 1 2 hook.toList, readBy lastForm 2 1 hook.toList].findSome? fun reading =>
      reading.bind (Reading.site? ids)

/-- A hook that is written as a keyword, a separator and an id. -/
def written (placement : Placement) (separator : Char) (id : String) : String :=
  String.ofList (placement.keyword ++ separator :: id.toList)

/-! ## Searches for an id -/

section

variable {hook : String} {ids : List String} {index : Nat} {site : Site} {r : Reading}

theorem findIdx?_eq_some_iff_firstWith {p : String → Bool} :
    ids.findIdx? p = some index ↔ FirstWith (p · = true) ids index := by
  rw [List.findIdx?_eq_some_iff_getElem]
  constructor
  · rintro ⟨hlt, hp, hbefore⟩
    refine ⟨⟨ids[index], List.getElem?_eq_getElem hlt, hp⟩, fun j hj id hid => ?_⟩
    obtain ⟨_, rfl⟩ := List.getElem?_eq_some_iff.1 hid
    exact hbefore j hj
  · rintro ⟨⟨id, hid, hp⟩, hbefore⟩
    obtain ⟨hlt, rfl⟩ := List.getElem?_eq_some_iff.1 hid
    exact ⟨hlt, hp, fun j hj => hbefore j hj _ (List.getElem?_eq_getElem (hj.trans hlt))⟩

theorem findIdx?_eq_iff_firstWith :
    ids.findIdx? (· = hook) = some index ↔ FirstWith (· = hook) ids index := by
  simp only [findIdx?_eq_some_iff_firstWith, decide_eq_true_eq]

theorem findIdx?_eq_none_iff_not_mem : ids.findIdx? (· = hook) = none ↔ hook ∉ ids := by
  simp only [List.findIdx?_eq_none_iff, decide_eq_false_iff_not, List.forall_mem_ne']

theorem site?_eq_some_iff :
    r.site? ids = some site ↔
      ∃ index, FirstWith r.Matches ids index ∧ ⟨index, r.placement⟩ = site := by
  rw [Reading.site?, Option.map_eq_some_iff]
  simp only [findIdx?_eq_some_iff_firstWith]
  rfl

theorem site?_eq_none_iff : r.site? ids = none ↔ ∀ id ∈ ids, ¬ r.Matches id := by
  simp only [Reading.site?, Option.map_eq_none_iff, List.findIdx?_eq_none_iff, Reading.Matches,
    Bool.not_eq_true]

/-! ## The search for a hook -/

theorem keywordFirst?_eq_readBy (hook : List Char) :
    keywordFirst? hook = readBy firstForm 1 2 hook :=
  Option.ext fun _ => keywordFirst?_eq_some_iff.trans readBy_firstForm_eq_some_iff.symm

theorem keywordLast?_eq_readBy (hook : List Char) :
    keywordLast? hook = readBy lastForm 2 1 hook :=
  Option.ext fun _ => keywordLast?_eq_some_iff.trans readBy_lastForm_eq_some_iff.symm

theorem locate_eq_locateByForms (hook : String) (ids : List String) :
    locate hook ids = locateByForms hook ids := by
  rw [locate, locateByForms, keywordFirst?_eq_readBy, keywordLast?_eq_readBy]
  cases ids.findIdx? (· = hook) with
  | some index => rfl
  | none =>
      simp only [List.findSome?_cons, List.findSome?_nil]
      cases (readBy firstForm 1 2 hook.toList).bind (Reading.site? ids) with
      | some site => rfl
      | none => cases (readBy lastForm 2 1 hook.toList).bind (Reading.site? ids) <;> rfl

theorem locate_of_not_mem (hnot : hook ∉ ids) :
    locate hook ids = some site ↔
      (∃ r, ReadsFirst hook.toList r ∧ r.site? ids = some site) ∨
      (∀ r, ReadsFirst hook.toList r → r.site? ids = none) ∧
        ∃ r, ReadsLast hook.toList r ∧ r.site? ids = some site := by
  rw [locate, findIdx?_eq_none_iff_not_mem.2 hnot]
  simp only [Option.or_eq_some_iff, Option.bind_eq_some_iff, Option.bind_eq_none_iff,
    keywordFirst?_eq_some_iff, keywordLast?_eq_some_iff]

theorem locate_of_firstWith (hfirst : FirstWith (· = hook) ids index) :
    locate hook ids = some ⟨index, .after⟩ := by
  rw [locate, findIdx?_eq_iff_firstWith.2 hfirst]

theorem locate_eq_some_iff : locate hook ids = some site ↔ Names hook ids site := by
  constructor
  · intro h
    cases hindex : ids.findIdx? (· = hook) with
    | some index =>
        have hfirst := findIdx?_eq_iff_firstWith.1 hindex
        obtain rfl := Option.some.inj ((locate_of_firstWith hfirst).symm.trans h)
        exact .step hfirst
    | none =>
        have hnot := findIdx?_eq_none_iff_not_mem.1 hindex
        obtain ⟨r, hread, hsite⟩ | ⟨hother, r, hread, hsite⟩ := (locate_of_not_mem hnot).1 h
        · obtain ⟨index, hfirst, rfl⟩ := site?_eq_some_iff.1 hsite
          exact .keywordFirst hnot hread hfirst
        · obtain ⟨index, hfirst, rfl⟩ := site?_eq_some_iff.1 hsite
          exact .keywordLast hnot (fun r' hr' => site?_eq_none_iff.1 (hother r' hr')) hread hfirst
  · intro h
    cases h with
    | step hfirst => exact locate_of_firstWith hfirst
    | keywordFirst hnot hread hfirst =>
        exact (locate_of_not_mem hnot).2 (.inl ⟨_, hread, site?_eq_some_iff.2 ⟨_, hfirst, rfl⟩⟩)
    | keywordLast hnot hother hread hfirst =>
        refine (locate_of_not_mem hnot).2 (.inr ⟨fun r' hr' => ?_, _, hread, ?_⟩)
        · exact site?_eq_none_iff.2 (hother r' hr')
        · exact site?_eq_some_iff.2 ⟨_, hfirst, rfl⟩

end

/-- A hook is located by what it names, and as the patterns for its two forms have it. -/
theorem locate_exact (hook : String) (ids : List String) :
    (∀ site, locate hook ids = some site ↔ Names hook ids site) ∧
      locate hook ids = locateByForms hook ids :=
  ⟨fun _ => locate_eq_some_iff, locate_eq_locateByForms hook ids⟩

-- What begins with a keyword can still be the id of a step.
example : locate "afterSave.before" ["save", "afterSave"] = some ⟨1, .before⟩ := by decide

/-! ## Hooks with a separator -/

theorem FirstWith.unique {P : String → Prop} {ids : List String} {index index' : Nat}
    (h : FirstWith P ids index) (h' : FirstWith P ids index') : index = index' := by
  obtain ⟨⟨id, hid, hP⟩, hbefore⟩ := h
  obtain ⟨⟨id', hid', hP'⟩, hbefore'⟩ := h'
  obtain hlt | heq | hgt := Nat.lt_trichotomy index index'
  · exact absurd hP (hbefore' index hlt id hid)
  · exact heq
  · exact absurd hP' (hbefore index' hgt id' hid')

theorem readsFirst_written {placement : Placement} {c : Char} {id : String}
    (hc : isSeparator c = true) (hne : id ≠ "") (hline : '\n' ∉ id.toList) :
    ReadsFirst (written placement c id).toList ⟨placement, id.toList⟩ := by
  have hid : id.toList ≠ [] := fun hnil => hne (String.toList_eq_nil_iff.1 hnil)
  refine ⟨placement.keyword, c :: id.toList, String.toList_ofList, beq_self_eq_true _, ?_, ?_⟩
  · exact (isLine_separator_cons hc hid).2 ⟨hid, hline⟩
  · rw [dropFirstSeparator_cons, if_pos ⟨hc, hid⟩]

/-- A keyword, a separator and the id of a step name the first step with this id in any case. -/
theorem locate_written {ids : List String} {i : Nat} {id : String} {placement : Placement}
    {c : Char} (hid : ids[i]? = some id) (hne : id ≠ "") (hline : '\n' ∉ id.toList)
    (hc : isSeparator c = true) (hnot : written placement c id ∉ ids) :
    (∃ index, FirstWith (fun other => sameIgnoringCase other.toList id.toList = true) ids index ∧
      locate (written placement c id) ids = some ⟨index, placement⟩) ∧
    (locate (written placement c id) ids = some ⟨i, placement⟩ ↔
      ∀ j < i, ∀ other, ids[j]? = some other →
        ¬ sameIgnoringCase other.toList id.toList = true) := by
  have hself : sameIgnoringCase id.toList id.toList = true := beq_self_eq_true _
  have hsome : (ids.findIdx? fun other => sameIgnoringCase other.toList id.toList).isSome := by
    rw [List.findIdx?_isSome, List.any_eq_true]
    exact ⟨id, List.mem_of_getElem? hid, hself⟩
  obtain ⟨index, hindex⟩ := Option.isSome_iff_exists.1 hsome
  have hfirst := findIdx?_eq_some_iff_firstWith.1 hindex
  have hlocate := locate_eq_some_iff.2 (.keywordFirst hnot (readsFirst_written hc hne hline) hfirst)
  refine ⟨⟨index, hfirst, hlocate⟩, ?_⟩
  rw [hlocate]
  constructor
  · intro h
    obtain rfl : index = i := congrArg Site.index (Option.some.inj h)
    exact hfirst.2
  · intro hbefore
    rw [hfirst.unique ⟨⟨id, hid, hself⟩, hbefore⟩]

theorem locate_written_save :
    (∃ index, FirstWith (fun other => sameIgnoringCase other.toList "save".toList = true)
        ["load", "Save", "save"] index ∧
      locate (written .before '-' "save") ["load", "Save", "save"] = some ⟨index, .before⟩) ∧
    (locate (written .before '-' "save") ["load", "Save", "save"] = some ⟨2, .before⟩ ↔
      ∀ j < 2, ∀ other, ["load", "Save", "save"][j]? = some other →
        ¬ sameIgnoringCase other.toList "save".toList = true) :=
  locate_written (i := 2) (by decide) (by decide) (by decide) (by decide) (by decide)

/-- Ids that differ in case alone are distinct, but not beside a keyword. -/
theorem locate_written_shadowed :
    ["Save", "save"].Nodup ∧ ["Save", "save"][1]? = some "save" ∧ "save" ≠ "" ∧
      '\n' ∉ "save".toList ∧ isSeparator '.' = true ∧
      written .after '.' "save" ∉ ["Save", "save"] ∧
      locate (written .after '.' "save") ["Save", "save"] = some ⟨0, .after⟩ ∧
      locate (written .after '.' "save") ["Save", "save"] ≠ some ⟨1, .after⟩ := by
  decide

end Hook

end StepWeave

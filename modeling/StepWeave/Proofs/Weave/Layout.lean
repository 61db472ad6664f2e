import Mathlib.Data.List.Basic
import StepWeave.Proofs.Lists
import StepWeave.Weave

/-!
# The layout of a woven sequence

Weaving goes through the extensions and scatters them over slots.  The layout reads the
woven sequence off the hooks instead: it goes through the base steps and collects for each
of them what its place attracts.  Weaving succeeds just if every hook names a place and no
step is replaced twice, and then it gives the steps of the layout
(`Variant.weave_eq_ok_iff`).  An extension more changes the layout in one place
(`layout_add`).
-/

namespace StepWeave

/-! ## Places -/

theorem Hook.Reading.index_lt_of_site? {r : Hook.Reading} {ids : List String} {site : Site}
    (h : r.site? ids = some site) : site.index < ids.length := by
  unfold site? at h
  obtain ⟨index, hfind, rfl⟩ := Option.map_eq_some_iff.1 h
  exact (List.findIdx?_eq_some_iff_getElem.1 hfind).1

/-- A place is that of one of the steps. -/
theorem Hook.index_lt_of_locate {hook : String} {ids : List String} {site : Site}
    (h : locate hook ids = some site) : site.index < ids.length := by
  unfold locate at h
  split at h
  next index hfind =>
    cases h
    exact (List.findIdx?_eq_some_iff_getElem.1 hfind).1
  · rw [Option.or_eq_some_iff] at h
    obtain h | ⟨-, h⟩ := h
    · obtain ⟨r, -, hr⟩ := Option.bind_eq_some_iff.1 h
      exact r.index_lt_of_site? hr
    · obtain ⟨r, -, hr⟩ := Option.bind_eq_some_iff.1 h
      exact r.index_lt_of_site? hr

/-! ## The layout -/

variable [Types] {R : Type}

/-- Where a step of a woven sequence comes from. -/
inductive Origin where
  | base (index : Nat)
  | extension (hook : String)
deriving DecidableEq, Repr

/-- A step of a woven sequence with its origin. -/
structure Thread (R : Type) where
  origin : Origin
  step : Step R

def Thread.ofExtension (e : String × Step R) : Thread R := ⟨.extension e.1, e.2⟩

namespace Layout

variable (ids : List String) (extensions : List (String × Step R))

/-- The extensions with a hook that names the place, in the order given. -/
def extensionsAt (site : Site) : List (String × Step R) :=
  extensions.filter fun e => Hook.locate e.1 ids = some site

/-- The extension takes the place of the base step. -/
def Replaces (e : String × Step R) (index : Nat) : Prop :=
  Hook.locate e.1 ids = some ⟨index, .replace⟩

/-- What stands for a base step: the extension that replaces it, or the step itself. -/
def center (index : Nat) (base : Step R) : Thread R :=
  match extensionsAt ids extensions ⟨index, .replace⟩ with
  | e :: _ => .ofExtension e
  | [] => ⟨.base index, base⟩

/-- What becomes of one base step. -/
def strand (index : Nat) (base : Step R) : List (Thread R) :=
  (extensionsAt ids extensions ⟨index, .before⟩).map .ofExtension ++
    center ids extensions index base ::
      (extensionsAt ids extensions ⟨index, .after⟩).map .ofExtension

end Layout

open Layout

/-- What becomes of the base steps, one after the other. -/
def layout (steps : List (Step R)) (extensions : List (String × Step R)) : List (Thread R) :=
  (steps.mapIdx (strand (steps.map (·.id)) extensions)).flatten

def Variant.layout (v : Variant R) : List (Thread R) :=
  StepWeave.layout v.steps v.extensions.entries

/-- Every hook names a place, and no two hooks replace the same step. -/
structure Variant.Weavable (v : Variant R) : Prop where
  located : ∀ hook ∈ v.extensions.keys, ∃ site, Hook.locate hook v.stepIds = some site
  uncontested : ∀ hook ∈ v.extensions.keys, ∀ other ∈ v.extensions.keys, ∀ index,
    Hook.locate hook v.stepIds = some ⟨index, .replace⟩ →
      Hook.locate other v.stepIds = some ⟨index, .replace⟩ → hook = other

/-! ## Extensions at a place -/

namespace Layout

variable {ids : List String} {extensions : List (String × Step R)} {e : String × Step R}
  {site : Site} {index : Nat}

theorem extensionsAt_eq_nil_iff :
    extensionsAt ids extensions site = [] ↔
      ∀ e ∈ extensions, Hook.locate e.1 ids ≠ some site := by
  simp [extensionsAt]

theorem extensionsAt_middle_of_ne {other : Site} (h : Hook.locate e.1 ids = some site)
    (hne : other ≠ site) (front back : List (String × Step R)) :
    extensionsAt ids (front ++ e :: back) other = extensionsAt ids (front ++ back) other := by
  have hmiss : Hook.locate e.1 ids ≠ some other := by
    rw [h]
    simpa using Ne.symm hne
  simp [extensionsAt, hmiss]

theorem extensionsAt_concat_of_ne {other : Site} (h : Hook.locate e.1 ids = some site)
    (hne : other ≠ site) (extensions : List (String × Step R)) :
    extensionsAt ids (extensions ++ [e]) other = extensionsAt ids extensions other := by
  rw [extensionsAt_middle_of_ne h hne extensions [], List.append_nil]

theorem extensionsAt_append (front back : List (String × Step R)) (site : Site) :
    extensionsAt ids (front ++ back) site =
      extensionsAt ids front site ++ extensionsAt ids back site :=
  List.filter_append ..

theorem extensionsAt_middle (h : Hook.locate e.1 ids = some site)
    (front back : List (String × Step R)) :
    extensionsAt ids (front ++ e :: back) site =
      extensionsAt ids front site ++ e :: extensionsAt ids back site := by
  simp [extensionsAt, h]

theorem strand_middle_of_ne (h : Hook.locate e.1 ids = some site) (hne : index ≠ site.index)
    (front back : List (String × Step R)) (base : Step R) :
    strand ids (front ++ e :: back) index base = strand ids (front ++ back) index base := by
  have helsewhere (placement : Placement) :
      extensionsAt ids (front ++ e :: back) ⟨index, placement⟩ =
        extensionsAt ids (front ++ back) ⟨index, placement⟩ :=
    extensionsAt_middle_of_ne h (fun heq => hne (congrArg Site.index heq)) front back
  rw [strand, strand, center, center, helsewhere, helsewhere, helsewhere]

end Layout

/-! ## One extension more -/

section

variable {e : String × Step R}

/-- Where an extension comes in among what becomes of the base step that it is for. -/
theorem strand_add {ids : List String} {index : Nat} {placement : Placement}
    (front back : List (String × Step R))
    (h : Hook.locate e.1 ids = some ⟨index, placement⟩)
    (hfree : placement = .replace → extensionsAt ids (front ++ back) ⟨index, placement⟩ = [])
    (base : Step R) :
    ∃ before after,
      strand ids (front ++ e :: back) index base = before ++ .ofExtension e :: after ∧
      (placement ≠ .replace ∧ strand ids (front ++ back) index base = before ++ after ∨
        placement = .replace ∧
          strand ids (front ++ back) index base = before ++ ⟨.base index, base⟩ :: after) := by
  have helsewhere (other : Placement) (hother : other ≠ placement) :
      extensionsAt ids (front ++ e :: back) ⟨index, other⟩ =
        extensionsAt ids (front ++ back) ⟨index, other⟩ :=
    extensionsAt_middle_of_ne h (fun heq => hother (congrArg Site.placement heq)) front back
  have hmiddle := extensionsAt_middle h front back
  cases placement with
  | before =>
      refine ⟨(extensionsAt ids front ⟨index, .before⟩).map .ofExtension,
        (extensionsAt ids back ⟨index, .before⟩).map .ofExtension ++
          center ids (front ++ back) index base ::
            (extensionsAt ids (front ++ back) ⟨index, .after⟩).map .ofExtension,
        ?_, .inl ⟨by simp, ?_⟩⟩
      · rw [strand, hmiddle, center, helsewhere .replace (by simp),
          helsewhere .after (by simp), List.map_append, List.append_assoc,
          List.map_cons, List.cons_append]
        rfl
      · rw [strand, extensionsAt_append front back ⟨index, .before⟩, List.map_append,
          List.append_assoc]
  | after =>
      refine ⟨(extensionsAt ids (front ++ back) ⟨index, .before⟩).map .ofExtension ++
        center ids (front ++ back) index base ::
          (extensionsAt ids front ⟨index, .after⟩).map .ofExtension,
        (extensionsAt ids back ⟨index, .after⟩).map .ofExtension, ?_, .inl ⟨by simp, ?_⟩⟩
      · rw [strand, hmiddle, center, helsewhere .replace (by simp),
          helsewhere .before (by simp), List.map_append, List.append_assoc,
          List.map_cons, List.cons_append]
        rfl
      · rw [strand, extensionsAt_append front back ⟨index, .after⟩, List.map_append,
          List.append_assoc, List.cons_append]
  | replace =>
      have hnone := hfree rfl
      rw [extensionsAt_append, List.append_eq_nil_iff] at hnone
      obtain ⟨hfront, hback⟩ := hnone
      refine ⟨(extensionsAt ids (front ++ back) ⟨index, .before⟩).map .ofExtension,
        (extensionsAt ids (front ++ back) ⟨index, .after⟩).map .ofExtension, ?_,
        .inr ⟨rfl, ?_⟩⟩
      · rw [strand, center, hmiddle, hfront, helsewhere .before (by simp),
          helsewhere .after (by simp)]
        rfl
      · rw [strand, center, hfree rfl]

/-- An extension is put in at one place of the layout, or takes the place of the base step
that it replaces. -/
theorem layout_add {steps : List (Step R)} {site : Site} (front back : List (String × Step R))
    (h : Hook.locate e.1 (steps.map (·.id)) = some site)
    (hfree : site.placement = .replace →
      extensionsAt (steps.map (·.id)) (front ++ back) site = []) :
    ∃ before after, layout steps (front ++ e :: back) = before ++ .ofExtension e :: after ∧
      (site.placement ≠ .replace ∧ layout steps (front ++ back) = before ++ after ∨
        ∃ base, site.placement = .replace ∧ steps[site.index]? = some base ∧
          layout steps (front ++ back) = before ++ ⟨.base site.index, base⟩ :: after) := by
  have hlt : site.index < steps.length := by simpa using Hook.index_lt_of_locate h
  have hbase : steps[site.index]? = some steps[site.index] := List.getElem?_eq_getElem hlt
  -- Only what becomes of one base step changes.
  have hset := mapIdx_eq_set hbase fun j hj base =>
    (strand_middle_of_ne h hj front back base).symm
  have hstrand : (steps.mapIdx (strand (steps.map (·.id)) (front ++ back)))[site.index]? =
      some (strand (steps.map (·.id)) (front ++ back) site.index steps[site.index]) := by
    rw [List.getElem?_mapIdx, hbase]
    rfl
  obtain ⟨earlier, later, hold, hnew⟩ := exists_flatten_set hstrand
  obtain ⟨before, after, hadded, hcases⟩ := strand_add front back h hfree steps[site.index]
  refine ⟨earlier ++ before, after ++ later, ?_, hcases.imp ?_ ?_⟩
  · rw [layout, hset, hnew, hadded]
    simp
  · rintro ⟨hplacement, hwas⟩
    refine ⟨hplacement, ?_⟩
    rw [layout, hold, hwas]
    simp
  · rintro ⟨hplacement, hwas⟩
    refine ⟨_, hplacement, hbase, ?_⟩
    rw [layout, hold, hwas]
    simp

end

end StepWeave

import StepWeave.Proofs.Weave.Slots
import StepWeave.ValueType

/-!
# Extensions do not disturb each other

One extension more is put in at one place of the woven sequence, or takes the place of a
base step that was not replaced, and everything else stays as it was
(`Variant.weave_extend`).  Its hook may come anywhere among those that were there before.
-/

namespace StepWeave

open Layout

section

variable [Types] {R : Type}

namespace Variant

/-- The variant with one extension more. -/
def extend (v : Variant R) (hook : String) (step : Step R) : Variant R :=
  { v with extensions := v.extensions.insert hook step }

/-- Some extension takes the place of the base step. -/
def Replaced (v : Variant R) (index : Nat) : Prop :=
  ∃ hook ∈ v.extensions.keys, Hook.locate hook v.stepIds = some ⟨index, .replace⟩

variable {v : Variant R} {woven : List (Step R)} {hook : String} {site : Site}

theorem replaced_iff {index : Nat} :
    v.Replaced index ↔
      extensionsAt v.stepIds v.extensions.entries ⟨index, .replace⟩ ≠ [] := by
  rw [ne_eq, extensionsAt_eq_nil_iff]
  simp [Replaced, Keyed.keys]

theorem mem_keys_extend {step : Step R} {other : String} :
    other ∈ (v.extend hook step).extensions.keys ↔ other = hook ∨ other ∈ v.extensions.keys :=
  Keyed.mem_keys_insert ..

/-- A new extension fits in if its hook names a place, and replaces no step again. -/
theorem weavable_extend_iff (h : v.Weavable) (hnew : hook ∉ v.extensions.keys)
    (step : Step R) :
    (v.extend hook step).Weavable ↔
      ∃ site, Hook.locate hook v.stepIds = some site ∧
        (site.placement = .replace → ¬ v.Replaced site.index) := by
  constructor
  · intro hextend
    obtain ⟨⟨index, placement⟩, hsite⟩ := hextend.located hook (mem_keys_extend.2 (.inl rfl))
    refine ⟨_, hsite, ?_⟩
    rintro rfl ⟨other, hother, hreplaces⟩
    have heq := hextend.uncontested hook (mem_keys_extend.2 (.inl rfl)) other
      (mem_keys_extend.2 (.inr hother)) index hsite hreplaces
    exact hnew (heq ▸ hother)
  · rintro ⟨site, hsite, hfree⟩
    have hcontested {index : Nat}
        (hreplaces : Hook.locate hook v.stepIds = some ⟨index, .replace⟩) :
        ¬ v.Replaced index := by
      cases hsite.symm.trans hreplaces
      exact hfree rfl
    refine ⟨?_, ?_⟩
    · intro other hother
      obtain rfl | hother := mem_keys_extend.1 hother
      · exact ⟨site, hsite⟩
      · exact h.located other hother
    · intro a ha b hb index hindex hindex'
      rw [mem_keys_extend] at ha hb
      obtain rfl | ha := ha
      · obtain rfl | hb := hb
        · rfl
        · exact absurd ⟨b, hb, hindex'⟩ (hcontested hindex)
      · obtain rfl | hb := hb
        · exact absurd ⟨a, ha, hindex⟩ (hcontested hindex')
        · exact h.uncontested a ha b hb index hindex hindex'

/-- Where the step of a new extension stands in the layout. -/
theorem layout_extend (hnew : hook ∉ v.extensions.keys)
    (hsite : Hook.locate hook v.stepIds = some site)
    (hfree : site.placement = .replace → ¬ v.Replaced site.index) (step : Step R) :
    ∃ before after,
      (v.extend hook step).layout = before ++ ⟨.extension hook, step⟩ :: after ∧
      (site.placement ≠ .replace ∧ v.layout = before ++ after ∨
        ∃ base, site.placement = .replace ∧ v.steps[site.index]? = some base ∧
          v.layout = before ++ ⟨.base site.index, base⟩ :: after) := by
  obtain ⟨front, back, hold, hinsert⟩ := Keyed.exists_insertEntry_eq hnew step
  have hnone : site.placement = .replace →
      extensionsAt v.stepIds (front ++ back) site = [] := by
    obtain ⟨index, placement⟩ := site
    rintro rfl
    rw [← hold, ← not_not (a := _ = []), ← ne_eq, ← replaced_iff]
    exact hfree rfl
  have hlayout : (v.extend hook step).layout =
      StepWeave.layout v.steps (front ++ (hook, step) :: back) :=
    congrArg (StepWeave.layout v.steps) hinsert
  rw [hlayout, layout, hold]
  exact layout_add front back hsite hnone

theorem weave_extend_of_fits (h : v.Weavable) (hnew : hook ∉ v.extensions.keys)
    (hsite : Hook.locate hook v.stepIds = some site)
    (hfree : site.placement = .replace → ¬ v.Replaced site.index) (step : Step R) :
    (v.extend hook step).weave = .ok ((v.extend hook step).layout.map Thread.step) :=
  weave_eq_ok_iff.2 ⟨(weavable_extend_iff h hnew step).2 ⟨site, hsite, hfree⟩, rfl⟩

theorem weave_extend_of_misfit (h : v.Weavable) (hnew : hook ∉ v.extensions.keys)
    (hmisfit : ∀ site, Hook.locate hook v.stepIds = some site →
      site.placement = .replace ∧ v.Replaced site.index) (step : Step R) :
    ∃ defect, (v.extend hook step).weave = .error (.invalidPipeline v.name v.layer defect) := by
  apply weave_of_not_weavable
  rw [weavable_extend_iff h hnew]
  rintro ⟨site, hsite, hfree⟩
  obtain ⟨hplacement, hreplaced⟩ := hmisfit site hsite
  exact hfree hplacement hreplaced

/-- What one extension more does to a variant that can be woven.  At a place before or
after a step its step is put in once.  Where it replaces a base step it stands in the
position of that step, unless the step is replaced already; then, and if the hook names no
place, the variant is refused as invalid. -/
theorem weave_extend (h : v.weave = .ok woven) (hnew : hook ∉ v.extensions.keys)
    (step : Step R) :
    woven = v.layout.map Thread.step ∧
    (∀ site, Hook.locate hook v.stepIds = some site → site.placement ≠ .replace →
      ∃ before after, v.layout = before ++ after ∧
        (v.extend hook step).weave =
          .ok (before.map Thread.step ++ step :: after.map Thread.step)) ∧
    (∀ index, Hook.locate hook v.stepIds = some ⟨index, .replace⟩ → ¬ v.Replaced index →
      ∃ before base after, v.steps[index]? = some base ∧
        v.layout = before ++ ⟨.base index, base⟩ :: after ∧
        (v.extend hook step).weave =
          .ok (before.map Thread.step ++ step :: after.map Thread.step)) ∧
    (∀ index, Hook.locate hook v.stepIds = some ⟨index, .replace⟩ → v.Replaced index →
      ∃ defect, (v.extend hook step).weave = .error (.invalidPipeline v.name v.layer defect)) ∧
    (Hook.locate hook v.stepIds = none →
      ∃ defect, (v.extend hook step).weave = .error (.invalidPipeline v.name v.layer defect)) := by
  obtain ⟨hweavable, hwoven⟩ := weave_eq_ok_iff.1 h
  refine ⟨hwoven.symm, ?_, ?_, ?_, ?_⟩
  · intro site hsite hplacement
    have hfree (hreplace : site.placement = .replace) : ¬ v.Replaced site.index :=
      absurd hreplace hplacement
    obtain ⟨before, after, hnow, ⟨-, hwas⟩ | ⟨base, hreplace, -⟩⟩ :=
      layout_extend hnew hsite hfree step
    · refine ⟨before, after, hwas, ?_⟩
      rw [weave_extend_of_fits hweavable hnew hsite hfree, hnow, List.map_append, List.map_cons]
    · exact absurd hreplace hplacement
  · intro index hsite hreplaced
    obtain ⟨before, after, hnow, ⟨hplacement, -⟩ | ⟨base, -, hbase, hwas⟩⟩ :=
      layout_extend hnew hsite (fun _ => hreplaced) step
    · exact absurd rfl hplacement
    · refine ⟨before, base, after, hbase, hwas, ?_⟩
      rw [weave_extend_of_fits hweavable hnew hsite (fun _ => hreplaced), hnow, List.map_append,
        List.map_cons]
  · intro index hsite hreplaced
    apply weave_extend_of_misfit hweavable hnew
    intro site hsite'
    cases hsite.symm.trans hsite'
    exact ⟨rfl, hreplaced⟩
  · intro hnone
    apply weave_extend_of_misfit hweavable hnew
    intro site hsite
    cases hnone.symm.trans hsite

end Variant

end

namespace Variant

def laced : Variant String where
  name := "laced"
  steps := [.hook "load", .hook "save"]
  extensions := .ofList [("beforeSave", .hook "audit"), ("replace.load", .hook "fetch")]

theorem weave_extend_laced :
    ∃ woven, laced.weave = .ok woven ∧ woven.map (·.id) = ["fetch", "audit", "save"] ∧
    (∃ before after, laced.layout = before ++ after ∧
      (laced.extend "before_save" (.hook "check")).weave =
        .ok (before.map Thread.step ++ .hook "check" :: after.map Thread.step)) ∧
    (∃ before base after, laced.layout = before ++ ⟨.base 1, base⟩ :: after ∧
      (laced.extend "save:replace" (.hook "send")).weave =
        .ok (before.map Thread.step ++ .hook "send" :: after.map Thread.step)) ∧
    (∃ defect, (laced.extend "load-replace" (.hook "read")).weave =
      .error (.invalidPipeline "laced" none defect)) ∧
    ∃ defect, (laced.extend "afterLunch" (.hook "rest")).weave =
      .error (.invalidPipeline "laced" none defect) := by
  obtain ⟨woven, hweave, hids⟩ :
      ∃ woven, laced.weave = .ok woven ∧ woven.map (·.id) = ["fetch", "audit", "save"] :=
    ⟨_, rfl, rfl⟩
  have hcheck := weave_extend hweave (show "before_save" ∉ laced.extensions.keys by decide)
    (.hook "check")
  have hsend := weave_extend hweave (show "save:replace" ∉ laced.extensions.keys by decide)
    (.hook "send")
  have hread := weave_extend hweave (show "load-replace" ∉ laced.extensions.keys by decide)
    (.hook "read")
  have hrest := weave_extend hweave (show "afterLunch" ∉ laced.extensions.keys by decide)
    (.hook "rest")
  have hfree : ¬ laced.Replaced 1 := by
    rw [replaced_iff]
    decide
  have hreplaced : laced.Replaced 0 := ⟨"replace.load", by decide, by decide⟩
  obtain ⟨before, base, after, -, hwas, hsent⟩ := hsend.2.2.1 1 (by decide) hfree
  exact ⟨woven, hweave, hids, hcheck.2.1 ⟨1, .before⟩ (by decide) (by decide),
    ⟨before, base, after, hwas, hsent⟩, hread.2.2.2.1 0 (by decide) hreplaced,
    hrest.2.2.2.2 (by decide)⟩

end Variant

end StepWeave

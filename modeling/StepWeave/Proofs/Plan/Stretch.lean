import Mathlib.Data.List.Basic
import StepWeave.Proofs.Plan.Coverage
import StepWeave.Proofs.Weave.Threads
import StepWeave.ValueType

/-!
# What an interceptor wraps between two base steps

An interceptor names base steps, but is placed in the woven sequence.  Where base steps have
ids of their own and no extension takes over one of the two it names, it wraps those two and
what belongs between them: the extensions after the first, the strands of the steps in
between, the extensions before the last (`Plan.interceptor_wraps_stretch`).
-/

namespace StepWeave

open Layout

section

variable [Types] {R : Type}

/-- A range that starts with the step it is to end with has no other step. -/
theorem Interceptor.Covers.eq_nil_of_stop {i : Interceptor R} {s : Step R}
    {front rest back : List (Step R)} (h : i.Covers front (s :: rest) back)
    (hstop : i.stop = some s.id) : rest = [] := by
  have hunnamed := (h.stops s.id hstop).2
  cases rest with
  | nil => rfl
  | cons t rest => simp at hunnamed

namespace Variant

/-- What becomes of each base step. -/
def strands (v : Variant R) : List (List (Thread R)) :=
  v.steps.mapIdx (strand v.stepIds v.extensions.entries)

/-- What becomes of some base steps that follow each other. -/
def stretch (v : Variant R) (s : Span) : List (Thread R) := (s.slice v.strands).flatten

/-- The extensions at a place. -/
def attached (v : Variant R) (site : Site) : List (Thread R) :=
  (extensionsAt v.stepIds v.extensions.entries site).map .ofExtension

/-- A range of the woven sequence goes from the base step `x` at `first` to the base step `y`
at `last`, which may be the same.  What is attached before the one and after the other is
left outside. -/
structure Wraps (v : Variant R) (first last : Nat) (x y : Step R)
    (front steps back : List (Step R)) : Prop where
  front_eq : front = (v.stretch ⟨0, first⟩ ++ v.attached ⟨first, .before⟩).map Thread.step
  steps_eq_singleton : first = last → steps = [x]
  steps_eq : first < last → steps =
    x :: (v.attached ⟨first, .after⟩ ++ v.stretch ⟨first + 1, last⟩ ++
      v.attached ⟨last, .before⟩).map Thread.step ++ [y]
  back_eq : back =
    (v.attached ⟨last, .after⟩ ++ v.stretch ⟨last + 1, v.steps.length⟩).map Thread.step

variable {v : Variant R} {index : Nat} {base : Step R}

/-! ## The strand of a base step -/

theorem drop_strands (h : v.steps[index]? = some base) :
    v.strands.drop index =
      strand v.stepIds v.extensions.entries index base :: v.strands.drop (index + 1) := by
  obtain ⟨hlt, rfl⟩ := List.getElem?_eq_some_iff.1 h
  have hlength : index < v.strands.length := by rwa [strands, List.length_mapIdx]
  rw [List.drop_eq_getElem_cons hlength]
  simp only [strands, List.getElem_mapIdx]

/-- The strand of a base step that is not replaced. -/
theorem strand_of_not_replaced
    (hfree : ∀ e ∈ v.extensions.entries, ¬ Replaces v.stepIds e index) (base : Step R) :
    strand v.stepIds v.extensions.entries index base =
      v.attached ⟨index, .before⟩ ++ ⟨.base index, base⟩ :: v.attached ⟨index, .after⟩ := by
  have hnone : extensionsAt v.stepIds v.extensions.entries ⟨index, .replace⟩ = [] :=
    extensionsAt_eq_nil_iff.2 hfree
  rw [strand, Layout.center, hnone]
  rfl

theorem stretch_append_drop {start stop : Nat} (hle : start ≤ stop) :
    v.stretch ⟨start, stop⟩ ++ (v.strands.drop stop).flatten =
      (v.strands.drop start).flatten := by
  rw [stretch, ← List.flatten_append, Span.slice_append_drop hle]

theorem stretch_length (start : Nat) :
    v.stretch ⟨start, v.steps.length⟩ = (v.strands.drop start).flatten := by
  rw [stretch, Span.slice, List.take_of_length_le (by simp [strands])]

/-- From a position on the layout is a stretch, then a base step that is not replaced in the
midst of its extensions, then the rest. -/
theorem flatten_drop_strands {start : Nat} (hle : start ≤ index)
    (h : v.steps[index]? = some base)
    (hfree : ∀ e ∈ v.extensions.entries, ¬ Replaces v.stepIds e index) :
    (v.strands.drop start).flatten =
      v.stretch ⟨start, index⟩ ++ v.attached ⟨index, .before⟩ ++
        ⟨.base index, base⟩ ::
          (v.attached ⟨index, .after⟩ ++ (v.strands.drop (index + 1)).flatten) := by
  rw [← stretch_append_drop hle, drop_strands h, List.flatten_cons, strand_of_not_replaced hfree]
  simp

/-! ## Base steps by their ids -/

section

variable (hweavable : v.Weavable) (hids : v.stepIds.Nodup)

include hweavable hids

/-- A base step with an id of its own is the only thread with that id. -/
theorem eq_of_step_id (h : v.steps[index]? = some base)
    (hfree : ∀ e ∈ v.extensions.values, e.id ≠ base.id) {t : Thread R} (ht : t ∈ v.layout)
    (hid : t.step.id = base.id) : t = ⟨.base index, base⟩ := by
  have haccounts := accounts_of_weavable hweavable
  obtain ⟨origin, step⟩ := t
  cases origin with
  | extension hook =>
      have hentry := (haccounts.extension_mem hook step).1 ht
      exact absurd hid (hfree step (List.mem_map_of_mem hentry))
  | base position =>
      obtain ⟨hstep, -⟩ := (haccounts.base_mem position step).1 ht
      have hlt : position < v.stepIds.length := by
        rw [stepIds, List.length_map]
        exact (List.getElem?_eq_some_iff.1 hstep).1
      have hsame : v.stepIds[position]? = v.stepIds[index]? := by
        rw [stepIds, List.getElem?_map, List.getElem?_map, hstep, h]
        exact congrArg some hid
      obtain rfl : position = index := (List.getElem?_inj hlt hids).1 hsame
      obtain rfl : step = base := Option.some.inj (hstep.symm.trans h)
      rfl

/-- A base step whose id is that of a woven step is not replaced. -/
theorem not_replaces_of_step_id (h : v.steps[index]? = some base)
    (hfree : ∀ e ∈ v.extensions.values, e.id ≠ base.id) {s : Step R}
    (hs : s ∈ v.layout.map Thread.step) (hid : s.id = base.id) :
    ∀ e ∈ v.extensions.entries, ¬ Replaces v.stepIds e index := by
  obtain ⟨t, ht, rfl⟩ := List.mem_map.1 hs
  obtain rfl := eq_of_step_id hweavable hids h hfree ht hid
  exact (((accounts_of_weavable hweavable).base_mem index base).1 ht).2

/-- The woven sequence is split in one way only at a base step with an id of its own. -/
theorem split_of_step_id (h : v.steps[index]? = some base)
    (hfree : ∀ e ∈ v.extensions.values, e.id ≠ base.id) {before after : List (Thread R)}
    (hlayout : v.layout = before ++ ⟨.base index, base⟩ :: after) {front back : List (Step R)}
    {s : Step R} (hwoven : v.layout.map Thread.step = front ++ s :: back)
    (hid : s.id = base.id) :
    front = before.map Thread.step ∧ s = base ∧ back = after.map Thread.step := by
  have hnodup := (accounts_of_weavable hweavable).nodup
  rw [← Variant.layout, hlayout, List.map_append, List.map_cons, List.nodup_middle,
    List.nodup_cons, ← List.map_append] at hnodup
  have honly : ∀ t ∈ before ++ after, t.step ≠ s := by
    rintro t ht rfl
    have hmem : t ∈ v.layout := by
      rw [hlayout]
      simp only [List.mem_append, List.mem_cons] at ht ⊢
      tauto
    obtain rfl := eq_of_step_id hweavable hids h hfree hmem hid
    exact hnodup.1 (List.mem_map_of_mem ht)
  rw [List.forall_mem_append] at honly
  rw [hlayout, List.map_append, List.map_cons] at hwoven
  obtain ⟨hfront, hs, hback⟩ := (List.append_cons_inj_of_notMem
    (by simpa using honly.1) (by simpa using honly.2)).1 hwoven
  exact ⟨hfront.symm, hs.symm, hback.symm⟩

/-! ## Ranges -/

variable {first last : Nat} {x y : Step R} {i : Interceptor R} {front steps back : List (Step R)}

/-- A range that is to start at a base step starts where that step is woven in. -/
theorem starts_of_covers (hx : v.steps[first]? = some x)
    (hfree : ∀ e ∈ v.extensions.values, e.id ≠ x.id) (hstart : i.start = some x.id)
    (hcovers : i.Covers front steps back)
    (hwoven : v.layout.map Thread.step = front ++ steps ++ back) :
    ∃ rest, steps = x :: rest ∧
      v.layout = v.stretch ⟨0, first⟩ ++ v.attached ⟨first, .before⟩ ++ ⟨.base first, x⟩ ::
        (v.attached ⟨first, .after⟩ ++ (v.strands.drop (first + 1)).flatten) ∧
      front = (v.stretch ⟨0, first⟩ ++ v.attached ⟨first, .before⟩).map Thread.step ∧
      rest ++ back =
        (v.attached ⟨first, .after⟩ ++ (v.strands.drop (first + 1)).flatten).map Thread.step := by
  obtain ⟨s, hhead, hid⟩ := Option.map_eq_some_iff.1 (hcovers.starts x.id hstart).1
  obtain ⟨rest, rfl⟩ := List.head?_eq_some_iff.1 hhead
  have hs : s ∈ v.layout.map Thread.step := by
    rw [hwoven]
    simp
  have hlayout : v.layout = _ := flatten_drop_strands (Nat.zero_le first) hx
    (not_replaces_of_step_id hweavable hids hx hfree hs hid)
  obtain ⟨hfront, rfl, hrest⟩ :=
    split_of_step_id hweavable hids hx hfree hlayout (by simpa using hwoven) hid
  exact ⟨rest, rfl, hlayout, hfront, hrest⟩

/-- A range from one base step to a later one. -/
theorem wraps_of_covers_of_lt (hx : v.steps[first]? = some x) (hy : v.steps[last]? = some y)
    (hlt : first < last) (hxfree : ∀ e ∈ v.extensions.values, e.id ≠ x.id)
    (hyfree : ∀ e ∈ v.extensions.values, e.id ≠ y.id) (hstart : i.start = some x.id)
    (hstop : i.stop = some y.id) (hcovers : i.Covers front steps back)
    (hwoven : v.layout.map Thread.step = front ++ steps ++ back) :
    v.Wraps first last x y front steps back := by
  obtain ⟨-, -, hlayout, hfront, -⟩ :=
    starts_of_covers hweavable hids hx hxfree hstart hcovers hwoven
  obtain ⟨s, hlast, hid⟩ := Option.map_eq_some_iff.1 (hcovers.stops y.id hstop).1
  obtain ⟨init, rfl⟩ := List.getLast?_eq_some_iff.1 hlast
  have hs : s ∈ v.layout.map Thread.step := by
    rw [hwoven]
    simp
  have hrest := flatten_drop_strands hlt hy
    (not_replaces_of_step_id hweavable hids hy hyfree hs hid)
  have hends : v.layout =
      (v.stretch ⟨0, first⟩ ++ v.attached ⟨first, .before⟩ ++ ⟨.base first, x⟩ ::
        (v.attached ⟨first, .after⟩ ++ v.stretch ⟨first + 1, last⟩ ++
          v.attached ⟨last, .before⟩)) ++
      ⟨.base last, y⟩ :: (v.attached ⟨last, .after⟩ ++ (v.strands.drop (last + 1)).flatten) := by
    rw [hlayout, hrest]
    simp
  have hsplit : v.layout.map Thread.step = (front ++ init) ++ s :: back := by
    rw [hwoven]
    simp
  obtain ⟨hbefore, rfl, hback⟩ := split_of_step_id hweavable hids hy hyfree hends hsplit hid
  rw [List.map_append, ← hfront] at hbefore
  refine ⟨hfront, fun heq => absurd heq hlt.ne, fun _ => ?_, ?_⟩
  · rw [List.append_cancel_left hbefore]
    rfl
  · rw [stretch_length]
    exact hback

/-- A range from one base step to that step or a later one. -/
theorem wraps_of_covers (hx : v.steps[first]? = some x) (hy : v.steps[last]? = some y)
    (hle : first ≤ last) (hfree : ∀ e ∈ v.extensions.values, e.id ≠ x.id ∧ e.id ≠ y.id)
    (hstart : i.start = some x.id) (hstop : i.stop = some y.id)
    (hcovers : i.Covers front steps back)
    (hwoven : v.layout.map Thread.step = front ++ steps ++ back) :
    v.Wraps first last x y front steps back := by
  have hxfree : ∀ e ∈ v.extensions.values, e.id ≠ x.id := fun e he => (hfree e he).1
  have hyfree : ∀ e ∈ v.extensions.values, e.id ≠ y.id := fun e he => (hfree e he).2
  obtain rfl | hlt := hle.eq_or_lt
  · obtain rfl : x = y := Option.some.inj (hx.symm.trans hy)
    obtain ⟨rest, rfl, -, hfront, hback⟩ :=
      starts_of_covers hweavable hids hx hxfree hstart hcovers hwoven
    obtain rfl := hcovers.eq_nil_of_stop hstop
    refine ⟨hfront, fun _ => rfl, fun hlt => absurd hlt (Nat.lt_irrefl _), ?_⟩
    rw [stretch_length]
    exact hback
  · exact wraps_of_covers_of_lt hweavable hids hx hy hlt hxfree hyfree hstart hstop hcovers hwoven

end

end Variant

namespace Plan

/-- Weaving does not move steps across the ends of a range.  Where base steps have ids of
their own, an interceptor that names two of them, which no extension does, has one range in
the plan.  It wraps those two steps, the extensions after the first one, all that became of
the steps in between, and the extensions before the last one, and nothing else. -/
theorem interceptor_wraps_stretch {v : Variant R} {p : Plan R} (h : build v = .ok p)
    (hids : v.stepIds.Nodup) {i : Interceptor R} (hi : i ∈ v.interceptors) {first last : Nat}
    {x y : Step R} (hx : v.steps[first]? = some x) (hy : v.steps[last]? = some y)
    (hle : first ≤ last) (hstart : i.start = some x.id) (hstop : i.stop = some y.id)
    (hfree : ∀ e ∈ v.extensions.values, e.id ≠ x.id ∧ e.id ≠ y.id) :
    (∃ steps, .intercepted i steps ∈ p.segments) ∧
    ∀ before steps after, p.segments = before ++ .intercepted i steps :: after →
      v.Wraps first last x y (before.flatMap Segment.steps) steps
        (after.flatMap Segment.steps) := by
  obtain ⟨hweavable, hwoven⟩ := Variant.weave_eq_ok_iff.1 (steps_of_build h)
  refine ⟨?_, fun before steps after hsplit => ?_⟩
  · rw [← (interceptors_of_build h).mem_iff, List.mem_filterMap] at hi
    obtain ⟨s, hs, hhead⟩ := hi
    cases s with
    | plain step => cases hhead
    | intercepted j steps =>
        obtain rfl : j = i := Option.some.inj hhead
        exact ⟨steps, hs⟩
  · apply Variant.wraps_of_covers hweavable hids hx hy hle hfree hstart hstop
      (covers_of_build h hsplit)
    rw [hwoven, Plan.steps, hsplit]
    simp [Segment.steps]

end Plan

end

namespace Plan

/-- A pipeline with a watch from its first step to its third, and extensions on both sides
of either end. -/
def flanked : Variant String where
  name := "flanked"
  steps := [.hook "load", .hook "check", .hook "save", .hook "send"]
  extensions := .ofList [("beforeLoad", .hook "open"), ("afterLoad", .hook "log"),
    ("replace.check", .hook "verify"), ("save.before", .hook "lock"),
    ("save.after", .hook "note")]
  interceptors := [{ id := "watch", start := some "load", stop := some "save" }]

theorem exists_build_flanked : ∃ p, build flanked = .ok p := by
  obtain ⟨woven, hweave, hids⟩ : ∃ woven, flanked.weave = .ok woven ∧
      woven.map (·.id) = ["open", "load", "log", "verify", "lock", "save", "note", "send"] :=
    ⟨_, rfl, rfl⟩
  have hplaced : placeAll (woven.map (·.id)) flanked.interceptors =
      .ok [(⟨1, 6⟩, { id := "watch", start := some "load", stop := some "save" })] := by
    rw [hids]
    rfl
  exact ⟨_, build_of_follows hweave hplaced (by simp [sortByStart, Follows])⟩

theorem interceptor_wraps_stretch_flanked : ∃ p i, build flanked = .ok p ∧
    i ∈ flanked.interceptors ∧ i.start = some "load" ∧ i.stop = some "save" ∧
    (∃ steps, .intercepted i steps ∈ p.segments) ∧
    ∀ before steps after, p.segments = before ++ .intercepted i steps :: after →
      (before.flatMap Segment.steps).map (·.id) = ["open"] ∧
      steps.map (·.id) = ["load", "log", "verify", "lock", "save"] ∧
      (after.flatMap Segment.steps).map (·.id) = ["note", "send"] := by
  obtain ⟨p, hbuild⟩ := exists_build_flanked
  obtain ⟨i, hi, hstart, hstop⟩ : ∃ i ∈ flanked.interceptors, i.start = some "load" ∧
      i.stop = some "save" := ⟨_, List.mem_singleton_self _, rfl, rfl⟩
  have hload : flanked.steps[0]? = some (.hook "load") := rfl
  have hsave : flanked.steps[2]? = some (.hook "save") := rfl
  obtain ⟨hsome, hwraps⟩ := interceptor_wraps_stretch hbuild (by decide) hi hload hsave
    (by decide) hstart hstop (by decide)
  refine ⟨p, i, hbuild, hi, hstart, hstop, hsome, fun before steps after hsplit => ?_⟩
  have h := hwraps before steps after hsplit
  rw [h.front_eq, h.steps_eq (by decide), h.back_eq]
  exact ⟨rfl, rfl, rfl⟩

end Plan

end StepWeave

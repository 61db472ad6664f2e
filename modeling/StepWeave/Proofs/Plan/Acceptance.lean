import StepWeave.Proofs.Plan.Partition

/-!
# Which variants have a plan

A variant has a plan just if it can be woven, its interceptors fit the woven sequence and no
two of them wrap a common step; otherwise it is refused as invalid (`Plan.build_exact`).
Only neighbours are compared, and that is enough: spans in the order of their starts of which
none reaches into the next one end in that order as well.  Whatever is read by position on
the way is there.
-/

namespace StepWeave

variable [Types] {R : Type}

/-- The interceptors fit the sequence, and no two of them wrap a common step. -/
structure Variant.Placeable (v : Variant R) (ids : List String) : Prop where
  fits : ∀ i ∈ v.interceptors, i.Fits ids
  apart : v.interceptors.Pairwise fun i j => (i.extent ids).Disjoint (j.extent ids)

/-- A slice that is refused if it does not lie within the list. -/
def Span.slice? {α : Type} (s : Span) (l : List α) : Option (List α) :=
  if s.start ≤ s.stop ∧ s.stop ≤ l.length then some (s.slice l) else none

namespace Plan

/-! ## Neighbours -/

theorem Follows.pairwise {placed : List (Placed R)} {position : Nat}
    (h : Follows position placed) :
    placed.Pairwise (fun a b => a.1.stop ≤ b.1.start) ∧ ∀ a ∈ placed, position ≤ a.1.start := by
  induction placed generalizing position with
  | nil => simp
  | cons a rest ih =>
      obtain ⟨hstart, hspan, hrest⟩ := h
      obtain ⟨hpairwise, hlater⟩ := ih hrest
      refine ⟨List.pairwise_cons.2 ⟨hlater, hpairwise⟩, List.forall_mem_cons.2 ⟨hstart, ?_⟩⟩
      intro b hb
      exact (hstart.trans hspan).trans (hlater b hb)

theorem overlap?_of_disjoint {placed : List (Placed R)}
    (hsorted : placed.Pairwise fun a b => a.1.start ≤ b.1.start)
    (hproper : ∀ a ∈ placed, a.1.start < a.1.stop)
    (h : placed.Pairwise fun a b => a.1.Disjoint b.1) : overlap? placed = none := by
  induction placed with
  | nil => rfl
  | cons a rest ih =>
      cases rest with
      | nil => rfl
      | cons b rest =>
          rw [List.pairwise_cons] at hsorted h
          have hle := (h.1 b List.mem_cons_self).stop_le_start (hsorted.1 b List.mem_cons_self)
            (hproper b (by simp))
          rw [overlap?, if_neg (by omega)]
          exact ih hsorted.2 (fun c hc => hproper c (List.mem_cons_of_mem a hc)) h.2

theorem overlap?_of_empty {placed : List (Placed R)} (h : ∀ a ∈ placed, a.1.stop = 0) :
    overlap? placed = none := by
  induction placed with
  | nil => rfl
  | cons a rest ih =>
      cases rest with
      | nil => rfl
      | cons b rest =>
          have hstop := h a List.mem_cons_self
          rw [overlap?, if_neg (by omega)]
          exact ih fun c hc => h c (List.mem_cons_of_mem a hc)

/-- Comparing neighbours in the order of their starts finds every overlap. -/
theorem overlap?_sortByStart_iff {ids : List String} {interceptors : List (Interceptor R)}
    {placed : List (Placed R)} (h : placeAll ids interceptors = .ok placed) :
    overlap? (sortByStart placed) = none ↔ placed.Pairwise fun a b => a.1.Disjoint b.1 := by
  have hperm : (sortByStart placed).Pairwise (fun a b => a.1.Disjoint b.1) ↔
      placed.Pairwise fun a b => a.1.Disjoint b.1 :=
    (sortByStart_perm placed).pairwise_iff Span.Disjoint.symm
  rw [← hperm]
  constructor
  · intro hoverlap
    exact (follows_of_placeAll h hoverlap).pairwise.1.imp Span.disjoint_of_le
  · intro hdisjoint
    by_cases hids : ids = []
    · apply overlap?_of_empty
      intro a ha
      obtain ⟨i, -, hfits, rfl⟩ := exists_of_mem_sortByStart h ha
      have hle : i.past ids ≤ ids.length := hfits.past_le_length
      rw [hids, List.length_nil] at hle
      exact Nat.le_zero.1 (hids ▸ hle)
    · refine overlap?_of_disjoint (pairwise_sortByStart _) ?_ hdisjoint
      intro a ha
      obtain ⟨i, -, hfits, rfl⟩ := exists_of_mem_sortByStart h ha
      exact hfits.first_lt_past hids

/-- The variants with a plan are those whose interceptors can be placed in what is woven. -/
theorem exists_build_iff {v : Variant R} :
    (∃ p, build v = .ok p) ↔
      ∃ woven, v.weave = .ok woven ∧ v.Placeable (woven.map (·.id)) := by
  have hpairwise (ids : List String) :
      (v.interceptors.map fun i => (i.extent ids, i)).Pairwise (fun a b => a.1.Disjoint b.1) ↔
        v.interceptors.Pairwise fun i j => (i.extent ids).Disjoint (j.extent ids) :=
    List.pairwise_map
  constructor
  · rintro ⟨p, h⟩
    obtain ⟨woven, placed, hweave, hplaced, hfollows, -⟩ := build_ok h
    have hdisjoint := (overlap?_sortByStart_iff hplaced).1 hfollows.overlap?_eq_none
    obtain ⟨hfits, rfl⟩ := placeAll_eq_ok_iff.1 hplaced
    exact ⟨woven, hweave, hfits, (hpairwise _).1 hdisjoint⟩
  · rintro ⟨woven, hweave, hfits, hapart⟩
    have hplaced := placeAll_eq_ok_iff.2 ⟨hfits, rfl⟩
    have hoverlap := (overlap?_sortByStart_iff hplaced).2 ((hpairwise _).2 hapart)
    exact ⟨_, build_of_follows hweave hplaced (follows_of_placeAll hplaced hoverlap)⟩

/-! ## Bounds -/

/-- `cut` with every slice checked. -/
def cut? (woven : List (Step R)) (position : Nat) : List (Placed R) → Option (List (Segment R))
  | [] => ((Span.mk position woven.length).slice? woven).map (·.map .plain)
  | (span, i) :: rest =>
    match (Span.mk position span.start).slice? woven, span.slice? woven,
        cut? woven span.stop rest with
    | some between, some wrapped, some later =>
      some (between.map .plain ++ .intercepted i wrapped :: later)
    | _, _, _ => none

theorem cut?_eq_some {woven : List (Step R)} {position : Nat} {placed : List (Placed R)}
    (h : Follows position placed) (hposition : position ≤ woven.length)
    (hstop : ∀ a ∈ placed, a.1.stop ≤ woven.length) :
    cut? woven position placed = some (cut woven position placed) := by
  induction placed generalizing position with
  | nil =>
      have hslice : (Span.mk position woven.length).slice woven = woven.drop position := by
        rw [Span.slice, ← List.length_drop, List.take_length]
      rw [cut?, cut, Span.slice?, if_pos ⟨hposition, Nat.le_refl _⟩, hslice, Option.map_some]
  | cons a rest ih =>
      obtain ⟨span, i⟩ := a
      obtain ⟨hstart, hspan, hrest⟩ := h
      rw [List.forall_mem_cons] at hstop
      have hlater := ih hrest hstop.1 hstop.2
      have hbetween : (Span.mk position span.start).slice? woven =
          some ((Span.mk position span.start).slice woven) :=
        if_pos ⟨hstart, hspan.trans hstop.1⟩
      have hwrapped : span.slice? woven = some (span.slice woven) := if_pos ⟨hspan, hstop.1⟩
      rw [cut?, cut, hlater, hbetween, hwrapped]

/-- Whatever is read by its position while a plan is built is there. -/
structure InBounds (v : Variant R) : Prop where
  /-- A hook names one of the base steps. -/
  site : ∀ hook site, Hook.locate hook v.stepIds = some site → site.index < v.steps.length
  /-- The end of a range is looked for from a position of the sequence on. -/
  start : ∀ woven, v.weave = .ok woven → ∀ i ∈ v.interceptors,
    i.first (woven.map (·.id)) ≤ woven.length
  /-- The sequence is only cut inside. -/
  cut : ∀ woven placed, v.weave = .ok woven →
    placeAll (woven.map (·.id)) v.interceptors = .ok placed →
      overlap? (sortByStart placed) = none →
        cut? woven 0 (sortByStart placed) = some (Plan.cut woven 0 (sortByStart placed))

theorem inBounds (v : Variant R) : InBounds v where
  site hook site h := by
    have hlt := Hook.index_lt_of_locate h
    rwa [Variant.stepIds, List.length_map] at hlt
  start woven _ i _ := by
    have hle := i.first_le_length (woven.map (·.id))
    rwa [List.length_map] at hle
  cut woven placed _ hplaced hoverlap := by
    apply cut?_eq_some (follows_of_placeAll hplaced hoverlap) (Nat.zero_le _)
    intro a ha
    obtain ⟨i, -, hfits, rfl⟩ := exists_of_mem_sortByStart hplaced ha
    have hle := hfits.past_le_length
    rwa [List.length_map] at hle

/-- A variant has a plan just if it can be woven and its interceptors can be placed, and is
refused as invalid under its own name and layer otherwise.  The span that is found for an
interceptor is its extent, neighbours in the order of their starts tell whether any two
interceptors wrap a common step, and all positions that are used exist. -/
theorem build_exact (v : Variant R) :
    ((∃ p, build v = .ok p) ↔
      ∃ woven, v.weave = .ok woven ∧ v.Placeable (woven.map (·.id))) ∧
    (∀ failure, build v = .error failure →
      ∃ defect, failure = .invalidPipeline v.name v.layer defect) ∧
    (∀ (i : Interceptor R) ids span, i.span ids = .ok span ↔ i.Fits ids ∧ i.extent ids = span) ∧
    (∀ ids placed, placeAll ids v.interceptors = .ok placed →
      (overlap? (sortByStart placed) = none ↔
        placed.Pairwise fun a b => a.1.Disjoint b.1)) ∧
    InBounds v := by
  refine ⟨exists_build_iff, ?_, ?_, ?_, inBounds v⟩
  · intro failure h
    exact invalid_of_build h
  · intro i ids span
    exact Interceptor.span_eq_ok_iff
  · intro ids placed hplaced
    exact overlap?_sortByStart_iff hplaced

end Plan

end StepWeave

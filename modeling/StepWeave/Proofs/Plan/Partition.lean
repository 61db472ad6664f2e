import StepWeave.Proofs.Plan.Extent
import StepWeave.Proofs.Weave.Slots

/-!
# The steps of a plan

The ranges of the interceptors of a plan follow each other, so cutting the woven
sequence along them loses no step and moves none (`Plan.build_ok`).
-/

namespace StepWeave

/-! ## Spans -/

theorem Span.slice_append_drop {α : Type} {s : Span} (h : s.start ≤ s.stop) (l : List α) :
    s.slice l ++ l.drop s.stop = l.drop s.start := by
  have hdrop : l.drop s.stop = (l.drop s.start).drop (s.stop - s.start) := by
    rw [List.drop_drop, show s.start + (s.stop - s.start) = s.stop by omega]
  rw [Span.slice, hdrop, List.take_append_drop]

theorem Span.take_append_slice_append_drop {α : Type} {s : Span} (h : s.start ≤ s.stop)
    (l : List α) : l.take s.start ++ (s.slice l ++ l.drop s.stop) = l := by
  rw [Span.slice_append_drop h, List.take_append_drop]

variable [Types] {R : Type}

namespace Plan

/-! ## Cutting a sequence -/

/-- Spans that follow each other from `position` on. -/
def Follows : Nat → List (Placed R) → Prop
  | _, [] => True
  | position, (span, _) :: rest =>
    position ≤ span.start ∧ span.start ≤ span.stop ∧ Follows span.stop rest

theorem follows_of_overlap?_eq_none {placed : List (Placed R)} (h : overlap? placed = none)
    (hspan : ∀ a ∈ placed, a.1.start ≤ a.1.stop) {position : Nat}
    (hposition : ∀ a ∈ placed.head?, position ≤ a.1.start) : Follows position placed := by
  induction placed generalizing position with
  | nil => trivial
  | cons a rest ih =>
      refine ⟨hposition a rfl, hspan a (by simp), ?_⟩
      cases rest with
      | nil => trivial
      | cons b rest =>
          rw [overlap?] at h
          split at h
          · contradiction
          · next hle =>
            apply ih h
            · intro c hc
              exact hspan c (List.mem_cons_of_mem a hc)
            · rintro c ⟨⟩
              omega

theorem Follows.overlap?_eq_none {placed : List (Placed R)} {position : Nat}
    (h : Follows position placed) : overlap? placed = none := by
  induction placed generalizing position with
  | nil => rfl
  | cons a rest ih =>
      obtain ⟨-, -, hrest⟩ := h
      cases rest with
      | nil => rfl
      | cons b rest =>
          have hle : a.1.stop ≤ b.1.start := hrest.1
          rw [overlap?, if_neg (by omega)]
          exact ih hrest

theorem steps_map_plain (steps : List (Step R)) :
    (steps.map Segment.plain).flatMap Segment.steps = steps := by
  induction steps with
  | nil => rfl
  | cons s rest ih => simpa [Segment.steps] using ih

theorem steps_cut {woven : List (Step R)} {position : Nat} {placed : List (Placed R)}
    (h : Follows position placed) :
    (cut woven position placed).flatMap Segment.steps = woven.drop position := by
  induction placed generalizing position with
  | nil => rw [cut, steps_map_plain]
  | cons a rest ih =>
      obtain ⟨span, i⟩ := a
      obtain ⟨hstart, hspan, hrest⟩ := h
      rw [cut, List.flatMap_append, List.flatMap_cons, steps_map_plain, ih hrest, Segment.steps,
        Span.slice_append_drop hspan]
      exact Span.slice_append_drop (s := ⟨position, span.start⟩) hstart woven

/-! ## Building a plan -/

/-- Interceptors are placed if all of them fit, each at its extent. -/
theorem placeAll_eq_ok_iff {ids : List String} {interceptors : List (Interceptor R)}
    {placed : List (Placed R)} :
    placeAll ids interceptors = .ok placed ↔
      (∀ i ∈ interceptors, i.Fits ids) ∧
        interceptors.map (fun i => (i.extent ids, i)) = placed := by
  induction interceptors generalizing placed with
  | nil => simp [placeAll]
  | cons i rest ih =>
      rw [List.forall_mem_cons, List.map_cons, placeAll]
      constructor
      · intro h
        split at h
        · cases h
        next span hspan =>
          split at h
          · cases h
          next later hlater =>
            cases h
            obtain ⟨hfits, rfl⟩ := Interceptor.span_eq_ok_iff.1 hspan
            obtain ⟨hrest, rfl⟩ := ih.1 hlater
            exact ⟨⟨hfits, hrest⟩, rfl⟩
      · rintro ⟨⟨hfits, hrest⟩, rfl⟩
        rw [Interceptor.span_of_fits hfits, ih.2 ⟨hrest, rfl⟩]

theorem sortByStart_perm (placed : List (Placed R)) : (sortByStart placed).Perm placed :=
  List.mergeSort_perm placed _

theorem exists_of_mem_sortByStart {ids : List String} {interceptors : List (Interceptor R)}
    {placed : List (Placed R)} (h : placeAll ids interceptors = .ok placed) {a : Placed R}
    (ha : a ∈ sortByStart placed) : ∃ i ∈ interceptors, i.Fits ids ∧ a = (i.extent ids, i) := by
  obtain ⟨hfits, rfl⟩ := placeAll_eq_ok_iff.1 h
  rw [(sortByStart_perm _).mem_iff] at ha
  obtain ⟨i, hi, rfl⟩ := List.mem_map.1 ha
  exact ⟨i, hi, hfits i hi, rfl⟩

theorem start_le_trans (a b c : Placed R) (hab : decide (a.1.start ≤ b.1.start) = true)
    (hbc : decide (b.1.start ≤ c.1.start) = true) : decide (a.1.start ≤ c.1.start) = true :=
  decide_eq_true (Nat.le_trans (of_decide_eq_true hab) (of_decide_eq_true hbc))

theorem start_le_total (a b : Placed R) :
    (decide (a.1.start ≤ b.1.start) || decide (b.1.start ≤ a.1.start)) = true := by
  simpa using Nat.le_total a.1.start b.1.start

theorem pairwise_sortByStart (placed : List (Placed R)) :
    (sortByStart placed).Pairwise fun a b => a.1.start ≤ b.1.start :=
  (List.pairwise_mergeSort start_le_trans start_le_total placed).imp of_decide_eq_true

theorem follows_of_placeAll {ids : List String} {interceptors : List (Interceptor R)}
    {placed : List (Placed R)} (h : placeAll ids interceptors = .ok placed)
    (hoverlap : overlap? (sortByStart placed) = none) : Follows 0 (sortByStart placed) := by
  apply follows_of_overlap?_eq_none hoverlap
  · intro a ha
    obtain ⟨i, -, -, rfl⟩ := exists_of_mem_sortByStart h ha
    exact i.first_le_past ids
  · intro a _
    exact Nat.zero_le _

/-- A plan is the woven sequence cut along spans that follow each other. -/
theorem build_ok {v : Variant R} {plan : Plan R} (h : build v = .ok plan) :
    ∃ woven placed, v.weave = .ok woven ∧
      placeAll (woven.map (·.id)) v.interceptors = .ok placed ∧
      Follows 0 (sortByStart placed) ∧
      plan = ⟨cut woven 0 (sortByStart placed), woven.length⟩ := by
  unfold build at h
  split at h
  · cases h
  · next woven hweave =>
    split at h
    · cases h
    · next placed hplaced =>
      simp only at h
      split at h
      · cases h
      · next hoverlap =>
        cases h
        exact ⟨woven, placed, hweave, hplaced, follows_of_placeAll hplaced hoverlap, rfl⟩

theorem build_of_follows {v : Variant R} {woven : List (Step R)} {placed : List (Placed R)}
    (hweave : v.weave = .ok woven)
    (hplaced : placeAll (woven.map (·.id)) v.interceptors = .ok placed)
    (hfollows : Follows 0 (sortByStart placed)) :
    build v = .ok ⟨cut woven 0 (sortByStart placed), woven.length⟩ := by
  simp [build, hweave, hplaced, hfollows.overlap?_eq_none]

/-- Steps that run one after the other under no interceptor. -/
def ofSteps (steps : List (Step R)) : Plan R := ⟨steps.map .plain, steps.length⟩

@[simp] theorem steps_ofSteps (steps : List (Step R)) : (ofSteps steps).steps = steps :=
  steps_map_plain steps

@[simp] theorem total_ofSteps (steps : List (Step R)) : (ofSteps steps).total = steps.length :=
  rfl

theorem build_of_interceptors_nil {v : Variant R} {woven : List (Step R)}
    (hweave : v.weave = .ok woven) (h : v.interceptors = []) : build v = .ok (ofSteps woven) := by
  have hplaced : placeAll (woven.map (·.id)) v.interceptors = .ok [] := by
    rw [h]
    rfl
  rw [build_of_follows hweave hplaced (by simp [sortByStart, Follows])]
  simp [sortByStart, cut, ofSteps]

/-- A variant without a plan is refused as invalid under its own name and layer. -/
theorem invalid_of_build {v : Variant R} {failure : Failure} (h : build v = .error failure) :
    ∃ defect, failure = v.invalid defect := by
  unfold build at h
  split at h
  next hweave =>
    cases h
    exact Variant.invalid_of_weave hweave
  · split at h
    next defect _ =>
      cases h
      exact ⟨defect, rfl⟩
    · dsimp only at h
      split at h
      next defect _ =>
        cases h
        exact ⟨defect, rfl⟩
      · cases h

/-- A plan has just the steps of the woven sequence. -/
theorem steps_of_build {v : Variant R} {plan : Plan R} (h : build v = .ok plan) :
    v.weave = .ok plan.steps := by
  obtain ⟨woven, placed, hweave, -, hfollows, rfl⟩ := build_ok h
  rw [hweave, steps, steps_cut hfollows, List.drop_zero]

/-- The number that a plan keeps is that of its steps. -/
theorem total_of_build {v : Variant R} {plan : Plan R} (h : build v = .ok plan) :
    plan.total = plan.steps.length := by
  obtain ⟨woven, placed, -, -, hfollows, rfl⟩ := build_ok h
  rw [steps, steps_cut hfollows, List.drop_zero]

end Plan

end StepWeave

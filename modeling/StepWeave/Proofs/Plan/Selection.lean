import StepWeave.Proofs.Plan.Partition

/-!
# Plans with fewer interceptors

A variant that loses some of its interceptors keeps its plan but for their segments, which
fall apart into the steps that they wrapped (`Plan.build_selecting`).
-/

namespace StepWeave

variable [Types] {R : Type}

/-- The variant with those of its interceptors, and of its delegate's, that `keep`
selects. -/
def Variant.selecting (v : Variant R) (keep : Interceptor R → Bool) : Variant R :=
  { v with
    delegate := v.delegate.map fun d => { d with interceptors := d.interceptors.filter keep }
    interceptors := v.interceptors.filter keep }

theorem Variant.flatten_selecting (v : Variant R) (keep : Interceptor R → Bool) :
    (v.selecting keep).flatten = v.flatten.selecting keep := by
  obtain ⟨name, layer, delegate, steps, extensions, interceptors⟩ := v
  cases delegate with
  | none => rfl
  | some d => simp [selecting, flatten]

/-- The segments that are left of one when only interceptors that `keep` selects stay. -/
def Segment.selecting (keep : Interceptor R → Bool) : Segment R → List (Segment R)
  | .plain step => [.plain step]
  | .intercepted i steps => if keep i then [.intercepted i steps] else steps.map .plain

namespace Plan

def selecting (p : Plan R) (keep : Interceptor R → Bool) : Plan R :=
  { p with segments := p.segments.flatMap (Segment.selecting keep) }

/-! ## Steps -/

theorem steps_segment_selecting (keep : Interceptor R → Bool) (s : Segment R) :
    (s.selecting keep).flatMap Segment.steps = s.steps := by
  cases s with
  | plain step => simp [Segment.selecting]
  | intercepted i steps =>
      rw [Segment.selecting]
      split
      · simp
      · rw [steps_map_plain]
        rfl

theorem steps_selecting (p : Plan R) (keep : Interceptor R → Bool) :
    (p.selecting keep).steps = p.steps := by
  rw [selecting, steps, steps, List.flatMap_assoc]
  exact congrArg (p.segments.flatMap ·) (funext (steps_segment_selecting keep))

theorem selecting_map_plain (keep : Interceptor R → Bool) (steps : List (Step R)) :
    (steps.map Segment.plain).flatMap (Segment.selecting keep) = steps.map .plain := by
  induction steps with
  | nil => rfl
  | cons s rest ih => exact congrArg (Segment.plain s :: ·) ih

/-! ## Placing -/

theorem placeAll_filter {ids : List String} {interceptors : List (Interceptor R)}
    {placed : List (Placed R)} (h : placeAll ids interceptors = .ok placed)
    (keep : Interceptor R → Bool) :
    placeAll ids (interceptors.filter keep) = .ok (placed.filter (keep ·.2)) := by
  obtain ⟨hfits, rfl⟩ := placeAll_eq_ok_iff.1 h
  rw [placeAll_eq_ok_iff, List.filter_map]
  exact ⟨fun i hi => hfits i (List.mem_of_mem_filter hi), rfl⟩

/-! ## Sorting -/

/-- Sorting puts an element before what does not start earlier, and leaves the rest of
the order alone. -/
theorem sortByStart_cons (a : Placed R) (rest : List (Placed R)) :
    sortByStart (a :: rest) =
        (sortByStart rest).filter (fun b => b.1.start < a.1.start) ++
          a :: (sortByStart rest).filter (fun b => a.1.start ≤ b.1.start) ∧
      sortByStart rest =
        (sortByStart rest).filter (fun b => b.1.start < a.1.start) ++
          (sortByStart rest).filter (fun b => a.1.start ≤ b.1.start) := by
  obtain ⟨front, back, hcons, hrest, hfront⟩ :=
    List.mergeSort_cons start_le_trans start_le_total a rest
  have hsorted := pairwise_sortByStart (a :: rest)
  rw [sortByStart, hcons, List.pairwise_append, List.pairwise_cons] at hsorted
  obtain ⟨-, ⟨hback, -⟩, -⟩ := hsorted
  have hbefore : ∀ b ∈ front, b.1.start < a.1.start := by
    intro b hb
    simpa using hfront b hb
  have hafter : ∀ b ∈ back, a.1.start ≤ b.1.start := by
    intro b hb
    simpa using hback b hb
  have hlt : (front ++ back).filter (fun b => b.1.start < a.1.start) = front := by
    rw [List.filter_append, List.filter_eq_self.2 (by simpa using hbefore),
      List.filter_eq_nil_iff.2 (by simpa using hafter), List.append_nil]
  have hle : (front ++ back).filter (fun b => a.1.start ≤ b.1.start) = back := by
    rw [List.filter_append, List.filter_eq_nil_iff.2 (by simpa using hbefore),
      List.filter_eq_self.2 (by simpa using hafter), List.nil_append]
  have hsort : sortByStart rest = front ++ back := hrest
  rw [hsort, hlt, hle]
  exact ⟨hcons, rfl⟩

theorem sortByStart_filter (keep : Placed R → Bool) (placed : List (Placed R)) :
    sortByStart (placed.filter keep) = (sortByStart placed).filter keep := by
  induction placed with
  | nil => simp [sortByStart]
  | cons a rest ih =>
      obtain ⟨hcons, hsplit⟩ := sortByStart_cons a rest
      by_cases hkeep : keep a = true
      · rw [List.filter_cons_of_pos hkeep, (sortByStart_cons a (rest.filter keep)).1, ih, hcons,
          List.filter_append, List.filter_cons_of_pos hkeep, List.filter_filter,
          List.filter_filter, List.filter_filter, List.filter_filter]
        simp only [Bool.and_comm]
      · rw [List.filter_cons_of_neg hkeep, ih, hcons, List.filter_append,
          List.filter_cons_of_neg hkeep, ← List.filter_append, ← hsplit]

/-! ## Spans that follow each other -/

theorem Follows.mono {placed : List (Placed R)} {earlier later : Nat}
    (h : Follows later placed) (hle : earlier ≤ later) : Follows earlier placed := by
  cases placed with
  | nil => trivial
  | cons a rest => exact ⟨Nat.le_trans hle h.1, h.2⟩

theorem Follows.filter {placed : List (Placed R)} {position : Nat}
    (h : Follows position placed) (keep : Placed R → Bool) :
    Follows position (placed.filter keep) := by
  induction placed generalizing position with
  | nil => trivial
  | cons a rest ih =>
      obtain ⟨hstart, hspan, hrest⟩ := h
      by_cases hkeep : keep a = true
      · rw [List.filter_cons_of_pos hkeep]
        exact ⟨hstart, hspan, ih hrest⟩
      · rw [List.filter_cons_of_neg hkeep]
        exact (ih hrest).mono (Nat.le_trans hstart hspan)

/-! ## Cutting -/

/-- A cut from `position` on begins with single steps as far as no span starts. -/
theorem cut_eq_append {woven : List (Step R)} {placed : List (Placed R)} {position next : Nat}
    (h : Follows next placed) (hle : position ≤ next) :
    cut woven position placed =
      ((Span.mk position next).slice woven).map .plain ++ cut woven next placed := by
  cases placed with
  | nil =>
      have hdrop := Span.slice_append_drop (s := ⟨position, next⟩) hle woven
      rw [cut, cut, ← List.map_append, hdrop]
  | cons a rest =>
      obtain ⟨span, i⟩ := a
      have hstart : next ≤ span.start := h.1
      have hslice : (Span.mk position span.start).slice woven =
          (Span.mk position next).slice woven ++ (Span.mk next span.start).slice woven := by
        have hsplit : span.start - position = (next - position) + (span.start - next) := by omega
        have hdrop : next = position + (next - position) := by omega
        simp only [Span.slice]
        rw [hsplit, List.take_add, List.drop_drop, ← hdrop]
      rw [cut, cut, hslice, List.map_append, List.append_assoc]

theorem cut_filter {woven : List (Step R)} {placed : List (Placed R)} {position : Nat}
    (h : Follows position placed) (keep : Interceptor R → Bool) :
    cut woven position (placed.filter (keep ·.2)) =
      (cut woven position placed).flatMap (Segment.selecting keep) := by
  induction placed generalizing position with
  | nil => rw [List.filter_nil, cut, selecting_map_plain]
  | cons a rest ih =>
      obtain ⟨span, i⟩ := a
      obtain ⟨hstart, hspan, hrest⟩ := h
      rw [cut, List.flatMap_append, selecting_map_plain, List.flatMap_cons, ← ih hrest,
        Segment.selecting]
      by_cases hkeep : keep i = true
      · have hfilter : ((span, i) :: rest).filter (keep ·.2) =
            (span, i) :: rest.filter (keep ·.2) := List.filter_cons_of_pos hkeep
        rw [hfilter, cut, if_pos hkeep]
        rfl
      · -- Up to the end of the span there are now single steps only.
        have hfollows := (Follows.filter hrest (keep ·.2)).mono hspan
        have hfilter : ((span, i) :: rest).filter (keep ·.2) = rest.filter (keep ·.2) :=
          List.filter_cons_of_neg hkeep
        rw [hfilter, if_neg hkeep, cut_eq_append hfollows hstart,
          cut_eq_append (Follows.filter hrest (keep ·.2)) hspan]

/-! ## Building -/

/-- Leaving out interceptors of a variant that has a plan leaves them out of the plan. -/
theorem build_selecting {v : Variant R} {p : Plan R} (h : build v = .ok p)
    (keep : Interceptor R → Bool) : build (v.selecting keep) = .ok (p.selecting keep) := by
  obtain ⟨woven, placed, hweave, hplaced, hfollows, rfl⟩ := build_ok h
  have hsort := sortByStart_filter (keep ·.2) placed
  have hselected : Follows 0 (sortByStart (placed.filter (keep ·.2))) := by
    rw [hsort]
    exact hfollows.filter _
  have hbuild := build_of_follows (v := v.selecting keep) hweave (placeAll_filter hplaced keep)
    hselected
  rw [hbuild, hsort, cut_filter hfollows keep]
  rfl

end Plan

end StepWeave

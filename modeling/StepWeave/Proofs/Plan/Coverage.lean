import StepWeave.Proofs.Plan.Partition
import StepWeave.ValueType

/-!
# What the interceptors of a plan cover

The segments of a plan are the woven sequence, cut into single steps and one range for each
interceptor, and the range of an interceptor goes from the first step it names to the next
one it names (`Interceptor.Covers`, `Plan.partitions_of_build`).
-/

namespace StepWeave

section

variable [Types] {R : Type}

/-- The steps between `front` and `back` are those that the interceptor asks for. -/
structure Interceptor.Covers (i : Interceptor R) (front steps back : List (Step R)) : Prop where
  /-- Without a start id it covers the steps from the first on. -/
  front_eq_nil : i.start = none → front = []
  /-- It starts at the first step with the start id. -/
  starts : ∀ id, i.start = some id →
    steps.head?.map (·.id) = some id ∧ id ∉ front.map (·.id)
  /-- Without an end id it covers the steps up to the last. -/
  back_eq_nil : i.stop = none → back = []
  /-- It ends at the first step of its own with the end id. -/
  stops : ∀ id, i.stop = some id →
    steps.getLast?.map (·.id) = some id ∧ id ∉ steps.dropLast.map (·.id)

namespace Interceptor

variable {i : Interceptor R} {front steps back woven : List (Step R)}

theorem Covers.steps_ne_nil (h : i.Covers front steps back) (hne : front ++ steps ++ back ≠ []) :
    steps ≠ [] := by
  rintro rfl
  cases hstart : i.start with
  | some id => simpa using (h.starts id hstart).1
  | none =>
      cases hstop : i.stop with
      | some id => simpa using (h.stops id hstop).1
      | none => simp [h.front_eq_nil hstart, h.back_eq_nil hstop] at hne

/-- The extent of an interceptor is what it asks for. -/
theorem Fits.covers (h : i.Fits (woven.map (·.id))) :
    i.Covers (woven.take (i.first (woven.map (·.id))))
      ((i.extent (woven.map (·.id))).slice woven)
      (woven.drop (i.past (woven.map (·.id)))) := by
  have hids : ((i.extent (woven.map (·.id))).slice woven).map (·.id) =
      ((woven.map (·.id)).drop (i.first (woven.map (·.id)))).take
        (i.past (woven.map (·.id)) - i.first (woven.map (·.id))) := by
    rw [Span.slice, List.map_take, List.map_drop]
    rfl
  refine ⟨?_, ?_, ?_, ?_⟩
  · intro hstart
    rw [first_of_none hstart, List.take_zero]
  · intro id hstart
    have hmem := h.start_mem id hstart
    have hlt : i.first (woven.map (·.id)) < i.past (woven.map (·.id)) :=
      h.first_lt_past (List.ne_nil_of_mem hmem)
    refine ⟨?_, ?_⟩
    · rw [← List.head?_map, hids, List.head?_take, if_neg (by omega), List.head?_drop,
        first_of_some hstart, List.getElem?_idxOf hmem]
    · rw [List.map_take, List.mem_take_iff_idxOf_lt hmem, first_of_some hstart]
      omega
  · intro hstop
    rw [past_of_none hstop, List.length_map, List.drop_length]
  · intro id hstop
    have hmem := h.stop_mem id hstop
    have hlt := List.idxOf_lt_length_of_mem hmem
    have hlength : i.past (woven.map (·.id)) - i.first (woven.map (·.id)) =
        ((woven.map (·.id)).drop (i.first (woven.map (·.id)))).idxOf id + 1 := by
      rw [past_of_some hstop]
      omega
    rw [← List.getLast?_map, List.map_dropLast, hids, hlength]
    refine ⟨?_, ?_⟩
    · rw [List.getLast?_take, if_neg (by omega), Nat.add_sub_cancel, List.getElem?_idxOf hmem]
      rfl
    · rw [List.dropLast_eq_take, List.take_take, List.length_take,
        List.mem_take_iff_idxOf_lt hmem]
      omega

end Interceptor

/-- The interceptor that heads a segment. -/
def Segment.interceptor? : Segment R → Option (Interceptor R)
  | plain _ => none
  | intercepted i _ => some i

namespace Plan

theorem filterMap_interceptor?_map_plain (steps : List (Step R)) :
    (steps.map Segment.plain).filterMap Segment.interceptor? = [] := by
  induction steps with
  | nil => rfl
  | cons s rest ih => exact ih

theorem interceptors_cut (woven : List (Step R)) (position : Nat) (placed : List (Placed R)) :
    (cut woven position placed).filterMap Segment.interceptor? = placed.map Prod.snd := by
  induction placed generalizing position with
  | nil => rw [cut, filterMap_interceptor?_map_plain, List.map_nil]
  | cons a rest ih =>
      obtain ⟨span, i⟩ := a
      rw [cut, List.filterMap_append, filterMap_interceptor?_map_plain, List.nil_append,
        List.filterMap_cons, ih, List.map_cons]
      rfl

/-- The interceptors of a plan are those of its variant, each as often as there. -/
theorem interceptors_of_build {v : Variant R} {p : Plan R} (h : build v = .ok p) :
    (p.segments.filterMap Segment.interceptor?).Perm v.interceptors := by
  obtain ⟨woven, placed, -, hplaced, -, rfl⟩ := build_ok h
  obtain ⟨-, rfl⟩ := placeAll_eq_ok_iff.1 hplaced
  have hsorted := (sortByStart_perm
    (v.interceptors.map fun i => (i.extent (woven.map (·.id)), i))).map Prod.snd
  have hsnd : (v.interceptors.map fun i => (i.extent (woven.map (·.id)), i)).map Prod.snd =
      v.interceptors := by
    rw [List.map_map]
    exact List.map_id _
  rw [hsnd] at hsorted
  rw [interceptors_cut]
  exact hsorted

/-- A range of a cut, and what follows it. -/
theorem cut_eq_append_cons {woven : List (Step R)} {position : Nat} {placed : List (Placed R)}
    {before after : List (Segment R)} {i : Interceptor R} {steps : List (Step R)}
    (h : Follows position placed)
    (hcut : cut woven position placed = before ++ .intercepted i steps :: after) :
    ∃ span, (span, i) ∈ placed ∧ span.start ≤ span.stop ∧ steps = span.slice woven ∧
      after.flatMap Segment.steps = woven.drop span.stop := by
  have hplain (l : List (Step R)) : Segment.intercepted i steps ∉ l.map Segment.plain := by
    simp
  induction placed generalizing position before with
  | nil =>
      rw [cut] at hcut
      have hmem : Segment.intercepted i steps ∈ (woven.drop position).map Segment.plain := by
        rw [hcut]
        simp
      exact absurd hmem (hplain _)
  | cons a rest ih =>
      obtain ⟨span, j⟩ := a
      obtain ⟨-, hspan, hrest⟩ := h
      rw [cut] at hcut
      have hlater : ∃ between, .intercepted j (span.slice woven) :: cut woven span.stop rest =
          between ++ .intercepted i steps :: after := by
        obtain ⟨between, -, hhere⟩ | ⟨between, hfront, hhere⟩ := List.append_eq_append_iff.1 hcut
        · exact ⟨between, hhere⟩
        · cases between with
          | nil => exact ⟨[], hhere.symm⟩
          | cons b between =>
              obtain ⟨rfl, -⟩ := List.cons.inj hhere
              have hmem : Segment.intercepted i steps ∈
                  ((Span.mk position span.start).slice woven).map Segment.plain := by
                rw [hfront]
                simp
              exact absurd hmem (hplain _)
      obtain ⟨between, hhere⟩ := hlater
      cases between with
      | nil =>
          cases hhere
          exact ⟨span, List.mem_cons_self, hspan, rfl, steps_cut hrest⟩
      | cons b between =>
          obtain ⟨-, hlater⟩ := List.cons.inj hhere
          obtain ⟨span', hmem, hrange⟩ := ih hrest hlater
          exact ⟨span', List.mem_cons_of_mem _ hmem, hrange⟩

/-- How a plan divides the woven sequence of its variant. -/
structure Partitions (v : Variant R) (woven : List (Step R)) (p : Plan R) : Prop where
  steps_eq : p.segments.flatMap Segment.steps = woven
  stepIds_eq : p.stepIds = woven.map (·.id)
  total_eq : p.total = woven.length
  /-- Every interceptor has one segment, and there are no others. -/
  interceptors_perm : (p.segments.filterMap Segment.interceptor?).Perm v.interceptors
  covers : ∀ before i steps after, p.segments = before ++ .intercepted i steps :: after →
    i.Covers (before.flatMap Segment.steps) steps (after.flatMap Segment.steps)
  steps_ne_nil : woven ≠ [] → ∀ i steps, .intercepted i steps ∈ p.segments → steps ≠ []

theorem covers_of_build {v : Variant R} {p : Plan R} (h : build v = .ok p)
    {before after : List (Segment R)} {i : Interceptor R} {steps : List (Step R)}
    (hsplit : p.segments = before ++ .intercepted i steps :: after) :
    i.Covers (before.flatMap Segment.steps) steps (after.flatMap Segment.steps) := by
  obtain ⟨woven, placed, -, hplaced, hfollows, rfl⟩ := build_ok h
  obtain ⟨span, hmem, hspan, rfl, hafter⟩ := cut_eq_append_cons hfollows hsplit
  -- What comes before the range is what the range and its rest leave of the sequence.
  have hbefore : before.flatMap Segment.steps = woven.take span.start := by
    have hwhole : (before ++ .intercepted i (span.slice woven) :: after).flatMap
        Segment.steps = woven := by
      rw [← hsplit, steps_cut hfollows, List.drop_zero]
    rw [List.flatMap_append, List.flatMap_cons, hafter] at hwhole
    exact List.append_cancel_right
      (hwhole.trans (Span.take_append_slice_append_drop hspan woven).symm)
  obtain ⟨_, -, hfits, heq⟩ := exists_of_mem_sortByStart hplaced hmem
  cases heq
  rw [hbefore, hafter]
  exact hfits.covers

/-- A plan is the woven sequence, each interceptor of the variant heads one of its ranges,
and every range is what its interceptor asks for. -/
theorem partitions_of_build {v : Variant R} {p : Plan R} (h : build v = .ok p) :
    ∃ woven, v.weave = .ok woven ∧ Partitions v woven p := by
  refine ⟨p.steps, steps_of_build h, rfl, rfl, total_of_build h, interceptors_of_build h,
    ?_, ?_⟩
  · intro before i steps after hsplit
    exact covers_of_build h hsplit
  · intro hne i steps hmem
    obtain ⟨before, after, hsplit⟩ := List.append_of_mem hmem
    apply (covers_of_build h hsplit).steps_ne_nil
    have hsteps : p.steps = before.flatMap Segment.steps ++ steps ++
        after.flatMap Segment.steps := by
      rw [Plan.steps, hsplit]
      simp [Segment.steps]
    rwa [← hsteps]

end Plan

end

namespace Plan

/-- A pipeline with a guard from its second step on and a watch up to its first, declared in
that order. -/
def escorted : Variant String where
  name := "escorted"
  steps := [.hook "load", .hook "check", .hook "save"]
  extensions := .ofList [("before.save", .hook "audit")]
  interceptors :=
    [{ id := "guard", start := some "check" }, { id := "watch", stop := some "load" }]

theorem exists_build_escorted : ∃ p woven, build escorted = .ok p ∧
    escorted.weave = .ok woven ∧ woven.map (·.id) = ["load", "check", "audit", "save"] := by
  obtain ⟨woven, hweave, hids⟩ : ∃ woven, escorted.weave = .ok woven ∧
      woven.map (·.id) = ["load", "check", "audit", "save"] := ⟨_, rfl, rfl⟩
  have hplaced : placeAll (woven.map (·.id)) escorted.interceptors =
      .ok [(⟨1, 4⟩, { id := "guard", start := some "check" }),
        (⟨0, 1⟩, { id := "watch", stop := some "load" })] := by
    rw [hids]
    rfl
  have hbuild := build_of_follows hweave hplaced (by
    simp [sortByStart, List.mergeSort, Follows])
  exact ⟨_, woven, hbuild, hweave, hids⟩

theorem partitions_of_build_escorted : ∃ p woven, build escorted = .ok p ∧
    escorted.weave = .ok woven ∧ woven.map (·.id) = ["load", "check", "audit", "save"] ∧
    Partitions escorted woven p := by
  obtain ⟨p, woven, hbuild, hweave, hids⟩ := exists_build_escorted
  obtain ⟨woven', hweave', hpartitions⟩ := partitions_of_build hbuild
  obtain rfl : woven = woven' := Except.ok.inj (hweave.symm.trans hweave')
  exact ⟨p, woven, hbuild, hweave, hids, hpartitions⟩

end Plan

end StepWeave

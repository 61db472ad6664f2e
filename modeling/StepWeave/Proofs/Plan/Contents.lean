import StepWeave.Proofs.Plan.Coverage
import StepWeave.Proofs.Weave.Threads

/-!
# What a plan is made of

Weaving and cutting make up no steps and no interceptors: a plan holds what its variant
carries (`Plan.mem_of_build`).
-/

namespace StepWeave

variable [Types] {R : Type}

/-- The woven sequence has base steps and extensions, and nothing else. -/
theorem Variant.mem_of_weave {v : Variant R} {woven : List (Step R)} {x : Step R}
    (h : v.weave = .ok woven) (hx : x ∈ woven) : x ∈ v.steps ∨ x ∈ v.extensions.values := by
  obtain ⟨hweavable, rfl⟩ := weave_eq_ok_iff.1 h
  obtain ⟨⟨origin, step⟩, ht, rfl⟩ := List.mem_map.1 hx
  have haccounts := accounts_of_weavable hweavable
  cases origin with
  | base index =>
      obtain ⟨hbase, -⟩ := (haccounts.base_mem index step).1 ht
      exact .inl (List.mem_of_getElem? hbase)
  | extension hook =>
      have hentry := (haccounts.extension_mem hook step).1 ht
      exact .inr (List.mem_map_of_mem hentry)

namespace Plan

/-- The segments of a plan hold the steps, extensions and interceptors of its variant. -/
theorem mem_of_build {v : Variant R} {p : Plan R} (h : build v = .ok p) {s : Segment R}
    (hs : s ∈ p.segments) :
    (∀ step ∈ s.steps, step ∈ v.steps ∨ step ∈ v.extensions.values) ∧
      ∀ i steps, s = .intercepted i steps → i ∈ v.interceptors := by
  constructor
  · intro step hstep
    exact Variant.mem_of_weave (steps_of_build h) (List.mem_flatMap.2 ⟨s, hs, hstep⟩)
  · rintro i steps rfl
    rw [← (interceptors_of_build h).mem_iff, List.mem_filterMap]
    exact ⟨_, hs, rfl⟩

end Plan

end StepWeave

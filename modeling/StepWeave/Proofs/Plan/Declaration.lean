import StepWeave.Execution
import StepWeave.Proofs.Plan.Acceptance
import StepWeave.Proofs.Plan.Coverage
import StepWeave.Proofs.Weave.Threads
import StepWeave.ValueType

/-!
# The order in which interceptors are declared

Where there is a step to wrap, no two interceptors of a plan start at the same one.  So there
is one order of their starts only, and it does not matter in which order they are declared
(`Plan.declaration_order_irrelevant`).
-/

namespace StepWeave

section

variable [Types] {R : Type}

/-- Weaving loses no place: every base step or what replaces it is there. -/
theorem Variant.length_le_of_weave {v : Variant R} {woven : List (Step R)}
    (h : v.weave = .ok woven) : v.steps.length ≤ woven.length := by
  obtain ⟨hweavable, rfl⟩ := weave_eq_ok_iff.1 h
  have haccounts := (accounts_of_weavable hweavable).length_add
  have hle : (replacements (v.steps.map (·.id)) v.extensions.entries).length ≤
      v.extensions.entries.length := List.length_filter_le ..
  rw [List.length_map, layout]
  omega

/-- The variant with other interceptors of its own. -/
def Variant.declaring (v : Variant R) (interceptors : List (Interceptor R)) : Variant R :=
  { v with interceptors }

namespace Plan

/-- Spans that follow each other and hold a step each start one after the other. -/
theorem Follows.pairwise_start_lt {placed : List (Placed R)} {position : Nat}
    (h : Follows position placed) (hproper : ∀ a ∈ placed, a.1.start < a.1.stop) :
    placed.Pairwise fun a b => a.1.start < b.1.start :=
  h.pairwise.1.imp_of_mem fun ha _ hle => Nat.lt_of_lt_of_le (hproper _ ha) hle

/-- There is one way to sort spans that start at different positions. -/
theorem sortByStart_of_perm {placed placed' : List (Placed R)} (hperm : placed'.Perm placed)
    (h : (sortByStart placed).Pairwise fun a b => a.1.start < b.1.start) :
    sortByStart placed' = sortByStart placed := by
  have hsorted := (sortByStart_perm placed').trans (hperm.trans (sortByStart_perm placed).symm)
  have : Std.Symm fun a b : Placed R => a.1.start ≠ b.1.start := ⟨fun _ _ => Ne.symm⟩
  have hdistinct := h.imp fun hlt => Nat.ne_of_lt hlt
  refine hsorted.eq_of_pairwise ?_ (pairwise_sortByStart placed') (pairwise_sortByStart placed)
  intro a b ha hb hab hba
  by_contra hne
  exact hdistinct.forall (hsorted.mem_iff.1 ha) hb hne (Nat.le_antisymm hab hba)

theorem build_declaring_of_perm {v : Variant R} {l : List (Interceptor R)}
    (hperm : l.Perm v.interceptors) (hsteps : v.steps ≠ []) {p : Plan R}
    (h : build v = .ok p) : build (v.declaring l) = .ok p := by
  obtain ⟨woven, placed, hweave, hplaced, hfollows, rfl⟩ := build_ok h
  have hproper : ∀ a ∈ sortByStart placed, a.1.start < a.1.stop := by
    intro a ha
    obtain ⟨i, -, hfits, rfl⟩ := exists_of_mem_sortByStart hplaced ha
    apply hfits.first_lt_past
    have hle := Variant.length_le_of_weave hweave
    have hpos := List.length_pos_of_ne_nil hsteps
    rw [← List.length_pos_iff, List.length_map]
    omega
  obtain ⟨hfits, rfl⟩ := placeAll_eq_ok_iff.1 hplaced
  have hplaced' : placeAll (woven.map (·.id)) (v.declaring l).interceptors =
      .ok (l.map fun i => (i.extent (woven.map (·.id)), i)) :=
    placeAll_eq_ok_iff.2 ⟨fun i hi => hfits i (hperm.mem_iff.1 hi), rfl⟩
  have hsort := sortByStart_of_perm
    (hperm.map fun i => (i.extent (woven.map (·.id)), i)) (hfollows.pairwise_start_lt hproper)
  rw [← hsort] at hfollows ⊢
  exact build_of_follows (v := v.declaring l) hweave hplaced' hfollows

theorem build_declaring_iff {v : Variant R} {l : List (Interceptor R)}
    (hperm : l.Perm v.interceptors) (hsteps : v.steps ≠ []) {p : Plan R} :
    build (v.declaring l) = .ok p ↔ build v = .ok p :=
  ⟨build_declaring_of_perm (v := v.declaring l) (l := v.interceptors) hperm.symm hsteps,
    build_declaring_of_perm hperm hsteps⟩

theorem run_declaring {v : Variant R} {l : List (Interceptor R)}
    (hperm : l.Perm v.interceptors) (hsteps : v.steps ≠ []) {p : Plan R}
    (h : build v = .ok p) (id : ExecutionId) (clock : Clock) (progress : Progress)
    (work : Workspace R) :
    Execution.run id clock progress (v.declaring l) work =
      Execution.run id clock progress v work := by
  rw [Execution.run, Execution.run, h, build_declaring_of_perm hperm hsteps h]

end Plan

/-- A variant that delegates has the interceptors of its delegate before its own. -/
theorem Variant.flatten_declaring (v : Variant R) {l : List (Interceptor R)}
    (hperm : l.Perm v.interceptors) :
    ∃ l', (v.declaring l).flatten = v.flatten.declaring l' ∧ l'.Perm v.flatten.interceptors := by
  obtain ⟨name, layer, delegate, steps, extensions, interceptors⟩ := v
  cases delegate with
  | none => exact ⟨l, rfl, hperm⟩
  | some d => exact ⟨d.interceptors ++ l, rfl, hperm.append_left d.interceptors⟩

namespace Plan

/-- Whether a variant with a base step has a plan, which plan that is, and so what becomes of
every run of it, does not depend on the order in which its interceptors are declared.  When
it is executed its delegate is followed, and then the interceptors of both come in one
list. -/
theorem declaration_order_irrelevant {v : Variant R} {l : List (Interceptor R)}
    (hperm : l.Perm v.interceptors) :
    (v.steps ≠ [] →
      (∀ p, build (v.declaring l) = .ok p ↔ build v = .ok p) ∧
      ∀ p, build v = .ok p → ∀ id clock progress work,
        Execution.run id clock progress (v.declaring l) work =
          Execution.run id clock progress v work) ∧
    (v.flatten.steps ≠ [] →
      (∀ p, build (v.declaring l).flatten = .ok p ↔ build v.flatten = .ok p) ∧
      ∀ p, build v.flatten = .ok p → ∀ id clock work,
        (v.declaring l).execute id clock work = v.execute id clock work) := by
  obtain ⟨l', hflatten, hperm'⟩ := v.flatten_declaring hperm
  refine ⟨fun hsteps => ⟨fun p => build_declaring_iff hperm hsteps, ?_⟩, fun hsteps => ⟨?_, ?_⟩⟩
  · intro p hp id clock progress work
    exact run_declaring hperm hsteps hp id clock progress work
  · intro p
    rw [hflatten]
    exact build_declaring_iff hperm' hsteps
  · intro p hp id clock work
    rw [Variant.execute, Variant.execute, hflatten]
    exact run_declaring hperm' hsteps hp id clock (.new v.name v.layer) work

end Plan

end

namespace Plan

theorem declaration_order_irrelevant_escorted :
    escorted.interceptors.reverse.map (·.id) = ["watch", "guard"] ∧ escorted.steps ≠ [] ∧
    ∃ p, build escorted = .ok p ∧
      build (escorted.declaring escorted.interceptors.reverse) = .ok p ∧
      ∀ id clock work,
        (escorted.declaring escorted.interceptors.reverse).execute id clock work =
          escorted.execute id clock work := by
  have hperm : escorted.interceptors.reverse.Perm escorted.interceptors := List.reverse_perm _
  have hsteps : escorted.steps ≠ [] := by simp [escorted]
  obtain ⟨p, -, hbuild, -⟩ := exists_build_escorted
  obtain ⟨hhere, hexecuted⟩ := declaration_order_irrelevant hperm
  exact ⟨rfl, hsteps, p, hbuild, ((hhere hsteps).1 p).2 hbuild, (hexecuted hsteps).2 p hbuild⟩

end Plan

end StepWeave

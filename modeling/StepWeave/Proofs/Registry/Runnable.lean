import StepWeave.Proofs.Execution.Planned
import StepWeave.Proofs.Plan.Partition
import StepWeave.Proofs.Registry.History
import StepWeave.TextStep

/-!
# What is registered can be run

A variant that a registry finds has a plan, which runs the steps that its listing
shows.  So an execution of it gets past its planning.
-/

namespace StepWeave

section

variable [Types]

/-! ## The listing of a variant -/

section

variable {type : TypeTag} {listings : List Listing} {held : List (Variant type.Carrier)}
  {v : Variant type.Carrier}

theorem Listing.filter_layer_eq_nil (h : List.Forall₂ Listing.Describes listings held)
    {layer : Option String} (hlayer : ∀ w ∈ held, layer ≠ w.layer) :
    listings.filter (·.layer = layer) = [] := by
  induction h with
  | nil => rfl
  | cons hw _ ih =>
      rw [List.filter_cons_of_neg, ih fun w hw => hlayer w (List.mem_cons_of_mem _ hw)]
      rw [hw.layer, decide_eq_true_eq]
      exact fun heq => hlayer _ (by simp) heq.symm

theorem Listing.exists_filter_layer_eq (h : List.Forall₂ Listing.Describes listings held)
    (hlayers : held.Pairwise fun v w => v.layer ≠ w.layer) (hv : v ∈ held) :
    ∃ l, listings.filter (·.layer = v.layer) = [l] ∧ l.Describes v := by
  induction h with
  | nil => contradiction
  | @cons l w _ _ hw hrest ih =>
      rw [List.pairwise_cons] at hlayers
      obtain rfl | hmem := List.mem_cons.1 hv
      · refine ⟨l, ?_, hw⟩
        rw [List.filter_cons_of_pos (by simp [hw.layer]), filter_layer_eq_nil hrest hlayers.1]
      · obtain ⟨l', hfilter, hl'⟩ := ih hlayers.2 hmem
        refine ⟨l', ?_, hl'⟩
        rw [List.filter_cons_of_neg, hfilter]
        rw [hw.layer, decide_eq_true_eq]
        exact hlayers.1 v hmem

end

namespace Registry

section

variable {r : Registry} (h : r.Consistent) {type : TypeTag} {name : String}
  {held : List (Variant type.Carrier)} (hheld : r.Holds type name held) {v : Variant type.Carrier}
  (hv : v ∈ held)
include h hheld hv

theorem Consistent.name_eq : v.name = name := by
  obtain ⟨l, hfilter, hl⟩ :=
    Listing.exists_filter_layer_eq (h.described name type held hheld) (h.layers _ _ _ hheld) hv
  have hmem : l ∈ r.listingsOf name := by
    have hl' : l ∈ (r.listingsOf name).filter (·.layer = v.layer) := by simp [hfilter]
    exact (List.mem_filter.1 hl').1
  rw [listingsOf, List.mem_filter, decide_eq_true_eq] at hmem
  rw [← hl.name, hmem.2]

theorem Consistent.exists_listing :
    ∃ l, r.listings.filter (fun l => l.name = v.name ∧ l.layer = v.layer) = [l] ∧
      l.Describes v := by
  obtain ⟨l, hfilter, hl⟩ :=
    Listing.exists_filter_layer_eq (h.described name type held hheld) (h.layers _ _ _ hheld) hv
  refine ⟨l, ?_, hl⟩
  rw [← hfilter, listingsOf, List.filter_filter, h.name_eq hheld hv]
  congr 1
  funext l
  rw [Bool.decide_and, Bool.and_comm]

end

/-- Whatever was registered, and in whatever order: a variant that is found can be
planned, and its plan is what its listing shows. -/
theorem runnable_of_resolve (history : List Registration) (type : TypeTag) (name : String)
    (layer : Option String) (v : Variant type.Carrier)
    (h : (ofHistory history).resolve type name layer = .ok v) :
    v.delegate = none ∧ v.stepIds.Nodup ∧
    ∃ plan listing, Plan.build v = .ok plan ∧ v.weave = .ok plan.steps ∧
      (ofHistory history).listings.filter (fun l => l.name = v.name ∧ l.layer = v.layer) =
        [listing] ∧
      plan.stepIds = listing.steps ∧ plan.total = listing.steps.length ∧
      ∀ id clock work, ∃ rest,
        ((ofHistory history).execute type name layer id clock work).events =
          .pipelineStarted id name layer plan.total :: rest := by
  obtain ⟨held, hheld, hv, -⟩ := resolve_ok h
  obtain ⟨l, hfilter, hl⟩ := (consistent_ofHistory history).exists_listing hheld hv
  obtain ⟨plan, hplan, hsteps⟩ := hl.steps
  refine ⟨hl.delegate, hl.nodup, plan, l, hplan, Plan.steps_of_build hplan, hfilter,
    hsteps.symm, ?_, ?_⟩
  · rw [hsteps, Plan.total_of_build hplan, Plan.stepIds, List.length_map]
  · intro id clock work
    obtain ⟨duration, hevents⟩ := Execution.events_run hplan id clock name layer work
    have hexecute : (ofHistory history).execute type name layer id clock work =
        Execution.run id clock (.new name layer) v work := by
      rw [execute, h]
    exact ⟨_, by rw [hexecute, hevents, List.cons_append]⟩

end Registry

end

namespace Registry

def greeting : Variant String where
  name := "greeting"
  steps := [TextStep.toStep ⟨"hello", .append "hello"⟩]

theorem build_greeting : Plan.build greeting = .ok (.ofSteps greeting.steps) :=
  Plan.build_of_interceptors_nil rfl rfl

theorem register_greeting (r : Registry) :
    register ValueType.string greeting r = store ValueType.string greeting
      (.of greeting greeting (.ofSteps greeting.steps) ValueType.string.name) r :=
  @register_of_build _ ValueType.string greeting r _ (by decide) build_greeting

theorem ofHistory_greeting : ∃ listing,
    ofHistory [⟨.string, greeting⟩] = Registry.empty.add .string [] greeting listing := by
  have hnew : Registry.empty.Holds .string greeting.name [] := .inl ⟨rfl, rfl⟩
  have honce : ofHistory [⟨.string, greeting⟩] = (register ValueType.string greeting .empty).2 :=
    rfl
  exact ⟨_, by rw [honce, register_greeting, store_of_room hnew (by simp)]⟩

/-- The second registration is refused; the default applies to every layer. -/
theorem resolve_greeting :
    (ofHistory [⟨.string, greeting⟩, ⟨.string, greeting⟩]).resolve .string "greeting"
      (some "shop") = .ok greeting := by
  obtain ⟨listing, hfirst⟩ := ofHistory_greeting
  have hbound : (Registry.empty.add .string [] greeting listing).entries.find? greeting.name =
      some ⟨.string, [greeting]⟩ := by
    rw [add, Keyed.find?_insert, if_pos rfl, List.nil_append]
  have htwice : ofHistory [⟨.string, greeting⟩, ⟨.string, greeting⟩] =
      (register ValueType.string greeting (ofHistory [⟨.string, greeting⟩])).2 := rfl
  have htaken : ∃ v ∈ [greeting], v.layer = greeting.layer :=
    ⟨greeting, List.mem_singleton_self _, rfl⟩
  rw [htwice, hfirst, register_greeting, @store_of_taken _ ValueType.string _ _ _ hbound htaken]
  exact resolve_of_bound hbound

theorem runnable_of_resolve_greeting :
    (ofHistory [⟨.string, greeting⟩, ⟨.string, greeting⟩]).resolve .string "greeting"
      (some "shop") = .ok greeting ∧
    ∃ plan listing, Plan.build greeting = .ok plan ∧
      (ofHistory [⟨.string, greeting⟩, ⟨.string, greeting⟩]).listings.filter
        (fun l => l.name = "greeting" ∧ l.layer = none) = [listing] ∧
      plan.stepIds = listing.steps := by
  obtain ⟨-, -, plan, listing, hplan, -, hlisting, hsteps, -⟩ :=
    runnable_of_resolve [⟨.string, greeting⟩, ⟨.string, greeting⟩] .string "greeting"
      (some "shop") greeting resolve_greeting
  exact ⟨resolve_greeting, plan, listing, hplan, hlisting, hsteps⟩

end Registry

end StepWeave

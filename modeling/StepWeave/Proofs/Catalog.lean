import StepWeave.Toolbox

/-!
# Looking up in a catalog

Of the steps that were added under an id the last one is found, and likewise of the
interceptors.  So the catalog of a toolbox knows just the ids that the toolbox declares.
-/

namespace StepWeave

namespace Catalog

variable {R : Type} {steps : List (Step R)} {interceptors : List (Interceptor R)}

theorem steps_foldl_addStep (c : Catalog R) :
    (steps.foldl addStep c).steps = steps.foldl (fun m s => m.insert s.id s) c.steps :=
  (List.foldl_hom Catalog.steps fun _ _ => rfl).symm

theorem interceptors_foldl_addStep (c : Catalog R) :
    (steps.foldl addStep c).interceptors = c.interceptors := by
  induction steps generalizing c with
  | nil => rfl
  | cons s rest ih => exact ih (c.addStep s)

theorem interceptors_foldl_addInterceptor (c : Catalog R) :
    (interceptors.foldl addInterceptor c).interceptors =
      interceptors.foldl (fun m i => m.insert i.id i) c.interceptors :=
  (List.foldl_hom Catalog.interceptors fun _ _ => rfl).symm

theorem steps_foldl_addInterceptor (c : Catalog R) :
    (interceptors.foldl addInterceptor c).steps = c.steps := by
  induction interceptors generalizing c with
  | nil => rfl
  | cons i rest ih => exact ih (c.addInterceptor i)

theorem step?_ofLists (id : String) :
    (ofLists steps interceptors).step? id = steps.reverse.find? (·.id = id) := by
  rw [step?, ofLists, steps_foldl_addInterceptor, steps_foldl_addStep,
    Keyed.find?_foldl_insert_key, Option.map_id']
  exact Option.or_none

theorem interceptor?_ofLists (id : String) :
    (ofLists steps interceptors).interceptor? id = interceptors.reverse.find? (·.id = id) := by
  rw [interceptor?, ofLists, interceptors_foldl_addInterceptor, interceptors_foldl_addStep,
    Keyed.find?_foldl_insert_key, Option.map_id']
  exact Option.or_none

end Catalog

theorem TextInterceptor.id_toInterceptor (i : TextInterceptor) : i.toInterceptor.id = i.id := by
  unfold toInterceptor
  cases i.kind <;> rfl

namespace Toolbox

variable (t : Toolbox) (id : String)

theorem step?_catalog :
    t.catalog.step? id = (t.steps.reverse.find? (·.id = id)).map TextStep.toStep := by
  rw [catalog, Catalog.step?_ofLists, ← List.map_reverse, List.find?_map]
  rfl

theorem interceptor?_catalog :
    t.catalog.interceptor? id =
      (t.interceptors.reverse.find? (·.id = id)).map TextInterceptor.toInterceptor := by
  have hid : (fun i : Interceptor String => decide (i.id = id)) ∘ TextInterceptor.toInterceptor =
      fun i => decide (i.id = id) := by
    funext i
    rw [Function.comp_apply, i.id_toInterceptor]
  rw [catalog, Catalog.interceptor?_ofLists, ← List.map_reverse, List.find?_map, hid]

theorem exists_step?_iff :
    (∃ s, t.catalog.step? id = some s) ↔ id ∈ t.steps.map (·.id) := by
  rw [← Option.isSome_iff_exists, step?_catalog, Option.isSome_map, List.find?_isSome]
  simp

theorem exists_interceptor?_iff :
    (∃ i, t.catalog.interceptor? id = some i) ↔ id ∈ t.interceptors.map (·.id) := by
  rw [← Option.isSome_iff_exists, interceptor?_catalog, Option.isSome_map, List.find?_isSome]
  simp

end Toolbox

end StepWeave

import StepWeave.Interceptor
import StepWeave.Keyed

/-!
# Variants of pipelines

A pipeline is a name under which variants are kept, one for each layer and one
without a layer, which is the default.  A variant that delegates takes the steps
of another one and adds its own extensions and interceptors (`Variant.flatten`).
-/

namespace StepWeave

/-- One variant of a pipeline over responses of type `R`. -/
structure Variant [Types] (R : Type) where
  name : String
  /-- The layer that the variant is for; without it the variant is the default. -/
  layer : Option String := none
  /-- The variant whose steps are used instead of this one's own. -/
  delegate : Option (Variant R) := none
  steps : List (Step R) := []
  /-- Steps to be woven in, by the name of their hook. -/
  extensions : Keyed (Step R) := .empty
  interceptors : List (Interceptor R) := []

namespace Variant

variable [Types] {R : Type}

def stepIds (v : Variant R) : List String := v.steps.map (·.id)

def invalid (v : Variant R) (defect : Defect) : Failure :=
  .invalidPipeline v.name v.layer defect

/-- The variant with its delegate written out, one level deep: the delegate's
steps, its extensions overlaid with the variant's own, and its interceptors
followed by the variant's own.  A delegate of the delegate is not looked at. -/
def flatten (v : Variant R) : Variant R :=
  match v.delegate with
  | none => v
  | some d =>
    { v with
      delegate := none
      steps := d.steps
      extensions := d.extensions.overlay v.extensions
      interceptors := d.interceptors ++ v.interceptors }

def firstRepeat? (ids : List String) (seen : List String := []) : Option String :=
  match ids with
  | [] => none
  | id :: rest => if id ∈ seen then some id else firstRepeat? rest (id :: seen)

def checkIds (v : Variant R) : Except Failure Unit :=
  match firstRepeat? v.stepIds with
  | some id => .error (v.invalid (.duplicateStep id))
  | none => .ok ()

end Variant

end StepWeave

import StepWeave.Plan

/-!
# The registry of pipelines

A registry binds each pipeline name to one response type and to the variants
registered for it, and keeps a listing of all variants in the order in which
they were registered.  A variant is stored with its delegate written out, and
only if it can be run.
-/

namespace StepWeave

variable [Types]

/-- The response type of a pipeline and its variants. -/
structure Entry where
  type : TypeTag
  variants : List (Variant type.Carrier) := []

/-- What is shown of a registered variant. -/
structure Listing where
  name : String
  layer : Option String
  /-- Name and layer of the delegate that the steps were taken from. -/
  delegate : Option (String × Option String)
  /-- Step ids in run order, extensions included. -/
  steps : List String
  hooks : List String
  interceptors : List String
  responseType : String
deriving DecidableEq, Repr

/-- The listing of a variant of which `flat` is the flattened form. -/
def Listing.of {R : Type} (v flat : Variant R) (plan : Plan R) (responseType : String) :
    Listing where
  name := flat.name
  layer := flat.layer
  delegate := v.delegate.map fun d => (d.name, d.layer)
  steps := plan.stepIds
  hooks := flat.extensions.keys
  interceptors := flat.interceptors.map (·.id)
  responseType

/-- Pipelines by name. -/
structure Registry where
  entries : Keyed Entry := .empty
  listings : List Listing := []

namespace Registry

def empty : Registry := {}

instance : Inhabited Registry := ⟨empty⟩
instance : EmptyCollection Registry := ⟨empty⟩

/-- The entry of a name.  A new name gets one on the way, bound to `type` and without
variants. -/
def enter (r : Registry) (type : TypeTag) (name : String) : Entry × Registry :=
  match r.entries.find? name with
  | some entry => (entry, r)
  | none => ({ type }, { r with entries := r.entries.insert name { type } })

/-- Add a checked variant to its entry, unless the entry is bound to another response
type or has a variant for the layer already. -/
def store (type : TypeTag) (flat : Variant type.Carrier) (listing : Listing) :
    Action Registry Unit := fun r =>
  let (entry, r) := r.enter type flat.name
  if h : type = entry.type then
    let variants := entry.variants
    if variants.any (·.layer = flat.layer) then
      (.error (.duplicatePipeline flat.name flat.layer), r)
    else
      (.ok (), ⟨r.entries.insert flat.name ⟨entry.type, variants ++ [h ▸ flat]⟩,
        r.listings ++ [listing]⟩)
  else
    (.error (.wrongResponseType flat.name entry.type.name type.name), r)

/-- Check a variant and add it.  It fails if the flattened variant has repeated step ids
or no plan, if the name is bound to another response type, or if there is a variant for
the layer already. -/
def register (type : TypeTag) (v : Variant type.Carrier) : Action Registry Unit := fun r =>
  let flat := v.flatten
  match flat.checkIds with
  | .error failure => (.error failure, r)
  | .ok () =>
    match Plan.build flat with
    | .error failure => (.error failure, r)
    | .ok plan => store type flat (Listing.of v flat plan type.name) r

/-- The variants of a name, if it is bound to the given response type. -/
def variants (r : Registry) (type : TypeTag) (name : String) (layer : Option String) :
    Except Failure (List (Variant type.Carrier)) :=
  match r.entries.find? name with
  | none => .error (.unknownPipeline name layer)
  | some entry =>
    if h : entry.type = type then .ok (h ▸ entry.variants)
    else .error (.wrongResponseType name entry.type.name type.name)

/-- The variant of `name` that applies to `layer`: the one for just that layer, or
else the default. -/
def resolve (r : Registry) (type : TypeTag) (name : String) (layer : Option String) :
    Except Failure (Variant type.Carrier) :=
  match r.variants type name layer with
  | .error failure => .error failure
  | .ok variants =>
    match (variants.find? (·.layer = layer)).or (variants.find? (·.layer = none)) with
    | some v => .ok v
    | none => .error (.unknownPipeline name layer)

def contains (r : Registry) (name : String) : Bool := r.entries.contains name

def names (r : Registry) : List String := r.entries.keys

def size (r : Registry) : Nat := r.listings.length

def isEmpty (r : Registry) : Bool := r.listings.isEmpty

end Registry

end StepWeave

import StepWeave.Catalog
import StepWeave.LoadError
import StepWeave.Registry

/-!
# Blueprints

A blueprint is a variant as a document writes it: it refers to steps,
interceptors and its delegate by name.  Linking a list of blueprints against a
catalog gives the variants.
-/

namespace StepWeave

variable [Types]

/-- A variant that refers to its parts by name. -/
structure Blueprint where
  name : String
  layer : Option String := none
  delegate : Option VariantKey := none
  steps : List String := []
  extensions : Keyed String := .empty
  interceptors : List String := []
deriving DecidableEq

namespace Blueprint

variable {R : Type}

def key (b : Blueprint) : VariantKey := ⟨b.name, b.layer⟩

/-! ## Checking -/

def checkKeys (seen : List VariantKey) : List Blueprint → Except LoadError.Cause Unit
  | [] => .ok ()
  | b :: rest =>
    if b.key ∈ seen then .error (.duplicateVariant b.key) else checkKeys (b.key :: seen) rest

/-- A delegate has to be another variant among `all`. -/
def checkDelegate (all : List Blueprint) (b : Blueprint) : Except LoadError.Cause Unit :=
  match b.delegate with
  | none => .ok ()
  | some target =>
    if target = b.key then .error (.selfDelegate b.key)
    else if all.any (·.key = target) then .ok ()
    else .error (.undefinedDelegate b.key target)

/-- The first blueprint with a wrong delegate. -/
def checkDelegates (all : List Blueprint) : List Blueprint → Except LoadError.Cause Unit
  | [] => .ok ()
  | b :: rest =>
    match checkDelegate all b with
    | .error cause => .error cause
    | .ok () => checkDelegates all rest

/-- Each variant is defined once, and delegates refer to other variants. -/
def check (all : List Blueprint) : Except LoadError.Cause Unit :=
  match checkKeys [] all with
  | .error cause => .error cause
  | .ok () => checkDelegates all all

/-! ## Linking -/

/-- Look ids up one after the other, up to the first that is unknown. -/
def linkEach {α β : Type} (find : α → Except LoadError.Cause β) :
    List α → Except LoadError.Cause (List β)
  | [] => .ok []
  | a :: rest =>
    match find a with
    | .error cause => .error cause
    | .ok b =>
      match linkEach find rest with
      | .error cause => .error cause
      | .ok bs => .ok (b :: bs)

def linkStep (catalog : Catalog R) (b : Blueprint) (id : String) :
    Except LoadError.Cause (Step R) :=
  match catalog.step? id with
  | some step => .ok step
  | none => .error (.unknownStep b.key id)

def linkExtension (catalog : Catalog R) (b : Blueprint) (e : String × String) :
    Except LoadError.Cause (String × Step R) :=
  match catalog.step? e.2 with
  | some step => .ok (e.1, step)
  | none => .error (.unknownExtension b.key e.1 e.2)

def linkInterceptor (catalog : Catalog R) (b : Blueprint) (id : String) :
    Except LoadError.Cause (Interceptor R) :=
  match catalog.interceptor? id with
  | some interceptor => .ok interceptor
  | none => .error (.unknownInterceptor b.key id)

/-- The variant of a blueprint, without its delegate: steps are looked up first, then
extensions in hook order, then interceptors. -/
def linkBase (catalog : Catalog R) (b : Blueprint) : Except LoadError.Cause (Variant R) :=
  match linkEach (linkStep catalog b) b.steps with
  | .error cause => .error cause
  | .ok steps =>
    match linkEach (linkExtension catalog b) b.extensions.entries with
    | .error cause => .error cause
    | .ok extensions =>
      match linkEach (linkInterceptor catalog b) b.interceptors with
      | .error cause => .error cause
      | .ok interceptors =>
        .ok {
          name := b.name
          layer := b.layer
          steps
          extensions := .ofList extensions
          interceptors }

/-- Give a variant its delegate, which is taken without a delegate of its own. -/
def linkDelegate (bases : List (Blueprint × Variant R)) (b : Blueprint × Variant R) :
    Except LoadError.Cause (Variant R) :=
  match b.1.delegate with
  | none => .ok b.2
  | some target =>
    match bases.find? (·.1.key = target) with
    | some found => .ok { b.2 with delegate := some found.2 }
    | none => .error (.unresolvedDelegate b.1.key)

/-- The variants of all blueprints, in order. -/
def link (catalog : Catalog R) (all : List Blueprint) :
    Except LoadError.Cause (List (Variant R)) :=
  match linkEach (linkBase catalog) all with
  | .error cause => .error cause
  | .ok variants =>
    let bases := all.zip variants
    linkEach (linkDelegate bases) bases

/-! ## Registering -/

/-- Register variants one after the other, up to the first that is refused. -/
def registerEach (type : TypeTag) :
    List (Variant type.Carrier) → Registry → Except LoadError Unit × Registry
  | [], r => (.ok (), r)
  | v :: rest, r =>
    match Registry.register type v r with
    | (.error failure, r) =>
      (.error ⟨[.registering ⟨v.name, v.layer⟩], .refused failure⟩, r)
    | (.ok (), r) => registerEach type rest r

/-- Link all blueprints, then register them in order. -/
def registerAll (type : TypeTag) (catalog : Catalog type.Carrier) (all : List Blueprint)
    (r : Registry) : Except LoadError Unit × Registry :=
  match link catalog all with
  | .error cause => (.error { cause }, r)
  | .ok variants => registerEach type variants r

end Blueprint

end StepWeave

import StepWeave.Failure
import StepWeave.Keyed
import StepWeave.Value

/-!
# The context of a run

A `Context` maps keys to values of any type and carries the flag by which a step
ends the pipeline.  Reading is checked: an entry of another type is a failure
and not an absent entry.
-/

namespace StepWeave

variable [Types]

/-- Scratch values shared by the steps of one run, and whether the run is to end. -/
structure Context where
  values : Keyed Value := .empty
  finished : Bool := false

namespace Context

def empty : Context := {}

instance : Inhabited Context := ⟨empty⟩
instance : EmptyCollection Context := ⟨empty⟩

/-- Store a value, replacing what was stored under the key, of whatever type. -/
def put (c : Context) (key : String) (type : TypeTag) (x : type.Carrier) : Context :=
  { c with values := c.values.insert key ⟨type, x⟩ }

/-- The value under `key` if there is one; an entry of another type is a failure. -/
def getOptional (c : Context) (type : TypeTag) (key : String) :
    Except Failure (Option type.Carrier) :=
  match c.values.find? key with
  | none => .ok none
  | some v =>
    match v.as? type with
    | some x => .ok (some x)
    | none => .error (.wrongValueType key type.name v.type.name)

/-- The value under `key`, which has to be there. -/
def get (c : Context) (type : TypeTag) (key : String) : Except Failure type.Carrier :=
  match c.getOptional type key with
  | .error failure => .error failure
  | .ok none => .error (.missingValue key)
  | .ok (some x) => .ok x

/-- Apply `f` to the value under `key`, which has to be there with the given type.
Answers the earlier value. -/
def modify (c : Context) (type : TypeTag) (key : String) (f : type.Carrier → type.Carrier) :
    Except Failure type.Carrier × Context :=
  match c.values.find? key with
  | none => (.error (.missingValue key), c)
  | some v =>
    match v.as? type with
    | some x => (.ok x, c.put key type (f x))
    | none => (.error (.wrongValueType key type.name v.type.name), c)

/-- Whether a value is stored under `key`, of whatever type. -/
def contains (c : Context) (key : String) : Bool := c.values.contains key

/-- Remove the value under `key`; answers whether there was one. -/
def remove (c : Context) (key : String) : Bool × Context :=
  (c.contains key, { c with values := c.values.erase key })

/-- The type of the value under `key`. -/
def typeOf? (c : Context) (key : String) : Option TypeTag := (c.values.find? key).map (·.type)

def keys (c : Context) : List String := c.values.keys

def size (c : Context) : Nat := c.values.size

def isEmpty (c : Context) : Bool := c.values.isEmpty

def setFinished (c : Context) (finished : Bool) : Context := { c with finished }

def typeNames (c : Context) : Keyed String := c.values.map (·.type.name)

end Context

end StepWeave

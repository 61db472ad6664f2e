/-!
# Values that a context or a response can hold

A `Value` is an element of one of the given types, which are told apart by their tags.
Reading a value at a type gives the element back only at the type it was stored with
(`Value.as?_mk`, `Value.as?_eq_none_iff`).
-/

namespace StepWeave

/-- The types of context values and of responses.  There may be any number of them, as
long as it can be decided whether two are the same. -/
class Types where
  /-- What stands for a type. -/
  Tag : Type
  /-- The elements of a type. -/
  Carrier : Tag → Type
  name : Tag → String
  decEq : DecidableEq Tag

section

variable [Types]

abbrev TypeTag : Type := Types.Tag

namespace TypeTag

instance : DecidableEq TypeTag := Types.decEq

abbrev Carrier (type : TypeTag) : Type := Types.Carrier type

abbrev name (type : TypeTag) : String := Types.name type

end TypeTag

/-- An element together with its type. -/
structure Value where
  type : TypeTag
  content : type.Carrier

namespace Value

/-- The element, if the value has the wanted type. -/
def as? (v : Value) (wanted : TypeTag) : Option wanted.Carrier :=
  if h : v.type = wanted then some (h ▸ v.content) else none

@[simp] theorem as?_mk (type : TypeTag) (x : type.Carrier) :
    (Value.mk type x).as? type = some x := by
  simp [as?]

theorem as?_eq_none_iff (wanted : TypeTag) (v : Value) :
    v.as? wanted = none ↔ v.type ≠ wanted := by
  simp [as?]

end Value

end

end StepWeave

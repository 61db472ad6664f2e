import StepWeave.Context

/-!
# The types of ready-made values

The types that documents, commands and ready-made steps use for context values and
responses, and texts in contexts.
-/

namespace StepWeave

inductive ValueType where
  | string
  | bool
  | u8
  | i32
  | u32
  | i64
  | u64
  | list (item : ValueType)
deriving DecidableEq, Repr, Inhabited

namespace ValueType

/-- The elements of a type. -/
abbrev Carrier : ValueType → Type
  | string => String
  | bool => Bool
  | u8 => UInt8
  | i32 => Int32
  | u32 => UInt32
  | i64 => Int64
  | u64 => UInt64
  | list item => List item.Carrier

def name : ValueType → String
  | string => "alloc::string::String"
  | bool => "bool"
  | u8 => "u8"
  | i32 => "i32"
  | u32 => "u32"
  | i64 => "i64"
  | u64 => "u64"
  | list item => "alloc::vec::Vec<" ++ item.name ++ ">"

instance : Types where
  Tag := ValueType
  Carrier := Carrier
  name := name
  decEq := inferInstance

end ValueType

/-! ## Texts -/

def Value.text (s : String) : Value := ⟨ValueType.string, s⟩

namespace Context

def putText (c : Context) (key text : String) : Context := c.put key .string text

def getText (c : Context) (key : String) : Except Failure String := c.get .string key

def getOptionalText (c : Context) (key : String) : Except Failure (Option String) :=
  c.getOptional .string key

end Context

end StepWeave

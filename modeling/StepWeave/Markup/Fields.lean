/-!
# Fields of a mapping

The known fields of a mapping are looked up by name.  A known field may be given
only once; any other may be repeated.
-/

namespace StepWeave.Markup

/-- Entries with text keys, in the order in which they are written. -/
abbrev Fields (α : Type) := List (String × α)

namespace Fields

variable {α β : Type}

/-- Read a field that may be left out, in which case it has the value `default`. -/
def optional (fields : Fields α) (name : String) (read : α → Option β) (default : β) :
    Option β :=
  match fields.filter (·.1 = name) with
  | [] => some default
  | [field] => read field.2
  | _ => none

def required (fields : Fields α) (name : String) (read : α → Option β) : Option β :=
  match fields.filter (·.1 = name) with
  | [field] => read field.2
  | _ => none

end Fields

end StepWeave.Markup

/-!
# Pairs on the command line

A context value is given as `key=value`.  The key ends at the first equals sign
and must not be empty; the value is all the rest.
-/

namespace StepWeave.Command

/-- A text that is no pair. -/
structure NotAPair where
  text : String
deriving DecidableEq, Repr

def NotAPair.message (e : NotAPair) : String := "Invalid key=value pair: " ++ e.text

def parsePair (s : String) : Except NotAPair (String × String) :=
  let key := s.toList.takeWhile (· ≠ '=')
  match s.toList.dropWhile (· ≠ '=') with
  | _ :: value => if key.isEmpty then .error ⟨s⟩ else .ok (String.ofList key, String.ofList value)
  | [] => .error ⟨s⟩

end StepWeave.Command

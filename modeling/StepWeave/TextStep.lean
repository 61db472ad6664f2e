import StepWeave.Step
import StepWeave.ValueType

/-!
# Ready-made steps over a text response
-/

namespace StepWeave

/-- What a text step does. -/
inductive TextStep.Kind where
  /-- The response becomes the context value under `key`, followed by `text`. -/
  | seed (key text : String)
  | append (text : String)
  | appendKey (key : String)
  /-- Append `text` and end the pipeline. -/
  | stop (text : String)
  | delay (millis : UInt64)
  /-- Fail with `message`, or refuse with `code` the user found under `userKey`. -/
  | fail (message : String) (code : Option String) (userKey : String)
  | hook
deriving DecidableEq, Repr

/-- A text step with the id under which pipelines refer to it. -/
structure TextStep where
  id : String
  kind : TextStep.Kind
deriving DecidableEq, Repr

namespace TextStep

def anonymous : String := "anonymous"

def Kind.act (id : String) (kind : Kind) : Action (Workspace String) Unit := fun w =>
  match kind with
  | seed key text =>
    match w.context.getText key with
    | .ok start => (.ok (), { w with response := start ++ text })
    | .error failure => (.error failure, w)
  | append text => (.ok (), { w with response := w.response ++ text })
  | appendKey key =>
    match w.context.getText key with
    | .ok value => (.ok (), { w with response := w.response ++ value })
    | .error failure => (.error failure, w)
  | stop text => (.ok (), ⟨w.context.setFinished true, w.response ++ text⟩)
  | delay _ => (.ok (), w)
  | fail message none _ => (.error (.stepFailed id message), w)
  | fail _ (some code) userKey =>
    match w.context.getOptionalText userKey with
    | .ok user => (.error (.forbidden code (user.getD anonymous)), w)
    | .error failure => (.error failure, w)
  | hook => (.ok (), w)

/-- How long a step of this kind holds the caller up, in milliseconds. -/
def Kind.pause : Kind → Nat
  | delay millis => millis.toNat
  | _ => 0

def toStep (s : TextStep) : Step String where
  id := s.id
  pause := s.kind.pause
  act := s.kind.act s.id

end TextStep

end StepWeave

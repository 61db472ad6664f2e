import StepWeave.Interceptor
import StepWeave.ValueType

/-!
# Ready-made interceptors over a text response
-/

namespace StepWeave

/-- What a recovering interceptor does with a failure. -/
inductive OnError where
  | resume
  | skipAfter
  | translate
deriving DecidableEq, Repr, Inhabited

/-- What a text interceptor does. -/
inductive TextInterceptor.Kind where
  /-- Store the wrapped range under `beforeKey` before it and under `afterKey` after it. -/
  | record (beforeKey afterKey : String)
  /-- Answer with a fixed mode, and append `text` after the steps. -/
  | skip (mode : Mode) (text : String)
  /-- Store the text of a failure under `errorKey` and deal with the failure. -/
  | recover (onError : OnError) (message : Option String) (errorKey : String)
deriving DecidableEq, Repr

/-- A text interceptor with the id under which pipelines refer to it. -/
structure TextInterceptor where
  id : String
  start : Option String := none
  stop : Option String := none
  kind : TextInterceptor.Kind
deriving DecidableEq, Repr

namespace TextInterceptor

/-- The wrapped range in words: the two ids run together. -/
def range (i : TextInterceptor) : String := i.start.getD "" ++ i.stop.getD ""

def toInterceptor (i : TextInterceptor) : Interceptor String :=
  let base : Interceptor String := { id := i.id, start := i.start, stop := i.stop }
  match i.kind with
  | .record beforeKey afterKey =>
    { base with
      before := fun c => (.ok .all, c.putText beforeKey i.range)
      after := fun w => (.ok (), { w with context := w.context.putText afterKey i.range }) }
  | .skip mode text =>
    { base with
      before := fun c => (.ok mode, c)
      after := fun w => (.ok (), { w with response := w.response ++ text }) }
  | .recover onError message errorKey =>
    { base with
      onThrow := fun failure c =>
        let answer : Except Failure Recovery :=
          match onError with
          | .resume => .ok .resume
          | .skipAfter => .ok .skipAfter
          | .translate => .error (.stepFailed i.id (message.getD ""))
        (answer, c.putText errorKey failure.message) }

end TextInterceptor

end StepWeave

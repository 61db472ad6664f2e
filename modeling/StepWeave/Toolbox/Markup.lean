import StepWeave.Markup.Content
import StepWeave.Markup.Fields
import StepWeave.Toolbox

/-!
# Toolboxes in markup

The written form of a toolbox has the fields `steps` and `interceptors`.  Each
definition has an `id` and a `kind`, which decides about its other fields.
-/

namespace StepWeave

open Markup

/-! ## Text steps -/

def TextStep.kinds : List (String × (Fields Content → Option TextStep.Kind)) :=
  [ ("seed", fun f => do
      let key ← f.required "key" Content.text?
      return .seed key (← f.optional "text" Content.text? "")),
    ("append", fun f => do return .append (← f.required "text" Content.text?)),
    ("append-key", fun f => do return .appendKey (← f.required "key" Content.text?)),
    ("stop", fun f => do return .stop (← f.optional "text" Content.text? "")),
    ("delay", fun f => do return .delay (← f.required "millis" Content.uint64?)),
    ("fail", fun f => do
      let message ← f.optional "message" Content.text? "step failed"
      let code ← f.optional "code" Content.optionText? none
      return .fail message code (← f.optional "user_key" Content.text? "user")),
    ("hook", fun _ => some .hook) ]

/-- The fields of a step, the name of its kind first. -/
def TextStep.Kind.toFields : TextStep.Kind → Fields Tree
  | seed key text => [("kind", .ofText "seed"), ("key", .ofText key), ("text", .ofText text)]
  | append text => [("kind", .ofText "append"), ("text", .ofText text)]
  | appendKey key => [("kind", .ofText "append-key"), ("key", .ofText key)]
  | stop text => [("kind", .ofText "stop"), ("text", .ofText text)]
  | delay millis => [("kind", .ofText "delay"), ("millis", .ofNat millis.toNat)]
  | fail message code userKey =>
    [("kind", .ofText "fail"), ("message", .ofText message), ("code", .ofOption code),
      ("user_key", .ofText userKey)]
  | hook => [("kind", .ofText "hook")]

/-- Read the kind from among the fields of a definition that it decides about. -/
def readKind {κ : Type} (kinds : List (String × (Fields Content → Option κ)))
    (fields : Fields Tree) : Option κ := do
  let contents ← fields.mapM fun f => (Content.ofTree? f.2).map (f.1, ·)
  let read ← Fields.required contents "kind" (Content.choice? kinds)
  read contents

def TextStep.ofTree? (t : Tree) : Option TextStep := do
  let fields ← t.entries?
  let id ← Fields.required fields "id" Tree.text?
  let kind ← readKind TextStep.kinds (fields.filter (·.1 ≠ "id"))
  return { id, kind }

def TextStep.toTree (s : TextStep) : Tree := .ofFields (("id", .ofText s.id) :: s.kind.toFields)

/-! ## Text interceptors -/

def Mode.names : List (String × Mode) :=
  [("all", .all), ("steps-only", .stepsOnly), ("after-only", .afterOnly), ("none", .neither)]

def Mode.toTree : Mode → Tree
  | all => .ofText "all"
  | stepsOnly => .ofText "steps-only"
  | afterOnly => .ofText "after-only"
  | neither => .ofText "none"

def OnError.names : List (String × OnError) :=
  [("resume", .resume), ("skip-after", .skipAfter), ("translate", .translate)]

def OnError.toTree : OnError → Tree
  | resume => .ofText "resume"
  | skipAfter => .ofText "skip-after"
  | translate => .ofText "translate"

/-- How to read each kind of interceptor from the fields of a definition. -/
def TextInterceptor.kinds : List (String × (Fields Content → Option TextInterceptor.Kind)) :=
  [ ("record", fun f => do
      let beforeKey ← f.optional "before_key" Content.text? "before"
      return .record beforeKey (← f.optional "after_key" Content.text? "after")),
    ("skip", fun f => do
      let mode ← f.optional "mode" (Content.setting? Mode.names) .afterOnly
      return .skip mode (← f.optional "text" Content.text? "")),
    ("recover", fun f => do
      let onError ← f.optional "on_error" (Content.setting? OnError.names) .resume
      let message ← f.optional "message" Content.optionText? none
      return .recover onError message (← f.optional "error_key" Content.text? "error")) ]

/-- The fields of an interceptor, the name of its kind first. -/
def TextInterceptor.Kind.toFields : TextInterceptor.Kind → Fields Tree
  | record beforeKey afterKey =>
    [("kind", .ofText "record"), ("before_key", .ofText beforeKey),
      ("after_key", .ofText afterKey)]
  | skip mode text =>
    [("kind", .ofText "skip"), ("mode", mode.toTree), ("text", .ofText text)]
  | recover onError message errorKey =>
    [("kind", .ofText "recover"), ("on_error", onError.toTree), ("message", .ofOption message),
      ("error_key", .ofText errorKey)]

def TextInterceptor.ofTree? (t : Tree) : Option TextInterceptor := do
  let fields ← t.entries?
  let id ← Fields.required fields "id" Tree.text?
  let start ← Fields.optional fields "start" Tree.optionText? none
  let stop ← Fields.optional fields "end" Tree.optionText? none
  let own := fields.filter fun f => !(["id", "start", "end"].contains f.1)
  let kind ← readKind TextInterceptor.kinds own
  return { id, start, stop, kind }

def TextInterceptor.toTree (i : TextInterceptor) : Tree :=
  .ofFields ([("id", .ofText i.id), ("start", .ofOption i.start), ("end", .ofOption i.stop)] ++
    i.kind.toFields)

/-! ## Toolboxes -/

namespace Toolbox

def demand : Demand := .fields [("steps", .items .whole), ("interceptors", .items .whole)]

def ofTree? (t : Tree) : Option Toolbox := do
  let fields ← t.entries?
  let list {α : Type} (read : Tree → Option α) (t : Tree) : Option (List α) :=
    t.items?.bind (List.mapM read)
  let steps ← Fields.optional fields "steps" (list TextStep.ofTree?) []
  let interceptors ← Fields.optional fields "interceptors" (list TextInterceptor.ofTree?) []
  return { steps, interceptors }

/-- The written form, in which no field is left out. -/
def toTree (t : Toolbox) : Tree :=
  .ofFields [
    ("steps", .ofList (t.steps.map TextStep.toTree)),
    ("interceptors", .ofList (t.interceptors.map TextInterceptor.toTree))]

def ofText (text : String) : Except LoadError.Cause Toolbox :=
  match (Tree.read demand text).bind ofTree? with
  | none => .error .markup
  | some t =>
    match t.check with
    | .error cause => .error cause
    | .ok () => .ok t

end Toolbox

end StepWeave

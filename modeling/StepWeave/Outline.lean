import StepWeave.Text.Quoted
import StepWeave.Variant

/-!
# One-line outlines for diagnostics
-/

namespace StepWeave

open Text

variable [Types]

/-- The keys of a context with the types stored under them, and its flag. -/
def Context.outline (c : Context) : String :=
  braced "PipelineContext" [
    ("values", bracket (c.typeNames.entries.map fun e => pair (quote e.1) (quote e.2))),
    ("finished", if c.finished then "true" else "false")]

/-- The names in a variant.  Of its delegate only name and layer are shown. -/
def Variant.outline {R : Type} (v : Variant R) : String :=
  let delegate :=
    match v.delegate with
    | none => "None"
    | some d => "Some(" ++ pair (quote d.name) (quoteOption d.layer) ++ ")"
  braced "PipelineInfo" [
    ("name", quote v.name),
    ("layer_id", quoteOption v.layer),
    ("delegate", delegate),
    ("steps", bracket (v.stepIds.map quote)),
    ("extensions", bracket (v.extensions.keys.map quote)),
    ("interceptors", bracket (v.interceptors.map fun i => quote i.id))]

end StepWeave

import StepWeave.Blueprint
import StepWeave.Markup.Fields
import StepWeave.Markup.Tree

/-!
# Blueprints in markup

The blueprints of a document are listed in its field `pipelines`.
-/

namespace StepWeave

open Markup

def readTexts (t : Tree) : Option (List String) := t.items?.bind (List.mapM Tree.text?)

namespace VariantKey

/-- Read the variant that a delegate refers to. -/
def ofTree? (t : Tree) : Option VariantKey := do
  let fields ← t.entries?
  let name ← Fields.required fields "pipeline" Tree.text?
  return ⟨name, ← Fields.optional fields "layer" Tree.optionText? none⟩

def toTree (k : VariantKey) : Tree :=
  .ofFields [("pipeline", .ofText k.name), ("layer", .ofOption k.layer)]

end VariantKey

namespace Blueprint

def demand : Demand :=
  .fields [("pipelines", .items (.fields [
    ("name", .whole),
    ("layer", .whole),
    ("delegate", .fields [("pipeline", .whole), ("layer", .whole)]),
    ("steps", .items .whole),
    ("extensions", .whole),
    ("interceptors", .items .whole)]))]

/-- Read a delegate, which may be absent. -/
def readDelegate (t : Tree) : Option (Option VariantKey) :=
  match t.optionText? with
  | some none => some none
  | _ => (VariantKey.ofTree? t).map some

/-- Read extensions; of two for one hook the later one counts. -/
def readExtensions (t : Tree) : Option (Keyed String) := do
  let entries ← t.entries?
  let pairs ← entries.mapM fun e => e.2.text?.map (e.1, ·)
  return .ofList pairs

def ofTree? (t : Tree) : Option Blueprint := do
  let fields ← t.entries?
  let name ← Fields.required fields "name" Tree.text?
  let layer ← Fields.optional fields "layer" Tree.optionText? none
  let delegate ← Fields.optional fields "delegate" readDelegate none
  let steps ← Fields.optional fields "steps" readTexts []
  let extensions ← Fields.optional fields "extensions" readExtensions .empty
  let interceptors ← Fields.optional fields "interceptors" readTexts []
  return { name, layer, delegate, steps, extensions, interceptors }

/-- The written form, in which no field is left out. -/
def toTree (b : Blueprint) : Tree :=
  .ofFields [
    ("name", .ofText b.name),
    ("layer", .ofOption b.layer),
    ("delegate", b.delegate.elim .null VariantKey.toTree),
    ("steps", .ofList (b.steps.map .ofText)),
    ("extensions", .ofFields (b.extensions.entries.map fun e => (e.1, .ofText e.2))),
    ("interceptors", .ofList (b.interceptors.map .ofText))]

def listOfTree? (t : Tree) : Option (List Blueprint) := do
  let fields ← t.entries?
  Fields.optional fields "pipelines" (fun t => t.items?.bind (List.mapM ofTree?)) []

def listToTree (all : List Blueprint) : Tree :=
  .ofFields [("pipelines", .ofList (all.map toTree))]

/-- The blueprints that a text describes, unchecked. -/
def readText (text : String) : Except LoadError.Cause (List Blueprint) :=
  match (Tree.read demand text).bind listOfTree? with
  | none => .error .markup
  | some all => .ok all

def ofText (text : String) : Except LoadError.Cause (List Blueprint) :=
  match readText text with
  | .error cause => .error cause
  | .ok all =>
    match check all with
    | .error cause => .error cause
    | .ok () => .ok all

end Blueprint

end StepWeave

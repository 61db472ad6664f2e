import StepWeave.Blueprint.Markup
import StepWeave.Toolbox.Markup

/-!
# Documents

A document declares steps and interceptors in one part and pipelines in another.
Both are read from the same text, each without regard to the other, and make up
a registry of pipelines over a text response.
-/

namespace StepWeave

/-- A file, with its bytes if they could be read. -/
structure Source where
  path : String
  content : Except ReadError ByteArray

namespace Source

def text (s : Source) : Except LoadError String :=
  let refused (e : ReadError) : LoadError := ⟨[.reading s.path], .unreadable e⟩
  match s.content with
  | .error e => .error (refused e)
  | .ok bytes =>
    match String.fromUTF8? bytes with
    | some text => .ok text
    | none => .error (refused .notText)

def load {α : Type} (s : Source) (read : String → Except LoadError α) : Except LoadError α :=
  match s.text with
  | .error e => .error e
  | .ok text => read text

end Source

namespace LoadError

def ofCause {α : Type} (x : Except Cause α) : Except LoadError α :=
  match x with
  | .error cause => .error { cause }
  | .ok a => .ok a

/-- The same result, with its error in a setting. -/
def inSetting {α : Type} (setting : Setting) (x : Except LoadError α) : Except LoadError α :=
  match x with
  | .error e => .error (e.within setting)
  | .ok a => .ok a

end LoadError

def Toolbox.ofSource (s : Source) : Except LoadError Toolbox :=
  s.load fun text => LoadError.ofCause (Toolbox.ofText text)

def Blueprint.ofSource (s : Source) : Except LoadError (List Blueprint) :=
  s.load fun text => LoadError.ofCause (Blueprint.ofText text)

/-- Both parts of a document. -/
structure Document where
  toolbox : Toolbox
  blueprints : List Blueprint
deriving DecidableEq

namespace Document

/-- Read the toolbox, then the blueprints. -/
def ofText (text : String) : Except LoadError Document :=
  match LoadError.inSetting .steps (LoadError.ofCause (Toolbox.ofText text)) with
  | .error e => .error e
  | .ok toolbox =>
    match LoadError.inSetting .pipelines (LoadError.ofCause (Blueprint.ofText text)) with
    | .error e => .error e
    | .ok blueprints => .ok { toolbox, blueprints }

def ofSource (s : Source) : Except LoadError Document :=
  s.load fun text => LoadError.inSetting (.document s.path) (ofText text)

def registry (d : Document) : Except LoadError Registry :=
  match Blueprint.registerAll ValueType.string d.toolbox.catalog d.blueprints .empty with
  | (.error e, _) => .error e
  | (.ok (), registry) => .ok registry

end Document

end StepWeave

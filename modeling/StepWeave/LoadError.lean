import StepWeave.Failure
import StepWeave.Text.Quoted

/-!
# Errors while loading a document

A `LoadError` is a cause within the settings in which it arose.  It is shown on
one line, outermost setting first, or as a report with the causes below the
outermost line.
-/

namespace StepWeave

/-- What tells the variants of all pipelines apart. -/
structure VariantKey where
  name : String
  layer : Option String
deriving DecidableEq, Repr

def VariantKey.describe (k : VariantKey) : String :=
  match k.layer with
  | some layer => s!"'{k.name}' (layer '{layer}')"
  | none => s!"'{k.name}' (default)"

def VariantKey.outline (k : VariantKey) : String :=
  s!"'{k.name}' (layer {Text.quoteOption k.layer})"

/-- Why a file cannot be read as text. -/
inductive ReadError where
  | notFound
  | notDirectory
  | isDirectory
  | denied
  | nameTooLong
  | notText
  /-- Any other reason, in the words of the system. -/
  | system (text : String)
deriving DecidableEq, Repr

def ReadError.message : ReadError → String
  | notFound => "No such file or directory (os error 2)"
  | notDirectory => "Not a directory (os error 20)"
  | isDirectory => "Is a directory (os error 21)"
  | denied => "Permission denied (os error 13)"
  | nameTooLong => "File name too long (os error 36)"
  | notText => "stream did not contain valid UTF-8"
  | system text => text

namespace LoadError

/-- What is wrong with a document. -/
inductive Cause where
  /-- The text is not well-formed, or its values do not fit the fields. -/
  | markup
  | unreadable (error : ReadError)
  | duplicateStep (id : String)
  | duplicateInterceptor (id : String)
  /-- An interceptor is to translate failures but has no message for them. -/
  | missingMessage (interceptor : String)
  | duplicateVariant (variant : VariantKey)
  | selfDelegate (variant : VariantKey)
  | undefinedDelegate (variant target : VariantKey)
  | unresolvedDelegate (variant : VariantKey)
  | unknownStep (variant : VariantKey) (id : String)
  | unknownExtension (variant : VariantKey) (hook id : String)
  | unknownInterceptor (variant : VariantKey) (id : String)
  | refused (failure : Failure)
deriving DecidableEq, Repr

def Cause.message : Cause → String
  | markup => "<yaml error>"
  | unreadable error => error.message
  | duplicateStep id => s!"Duplicate step id '{id}'"
  | duplicateInterceptor id => s!"Duplicate interceptor id '{id}'"
  | missingMessage interceptor =>
    s!"Interceptor '{interceptor}' translates failures but has no message"
  | duplicateVariant variant => s!"Duplicate pipeline definition {variant.describe}"
  | selfDelegate variant => s!"Pipeline {variant.describe} delegates to itself"
  | undefinedDelegate variant target =>
    s!"Pipeline {variant.describe} delegates to undefined pipeline {target.outline}"
  | unresolvedDelegate variant => s!"Pipeline {variant.describe} has an unresolved delegate"
  | unknownStep variant id => s!"Pipeline {variant.describe} references unknown step '{id}'"
  | unknownExtension variant hook id =>
    s!"Pipeline {variant.describe} extension '{hook}' references unknown step '{id}'"
  | unknownInterceptor variant id =>
    s!"Pipeline {variant.describe} references unknown interceptor '{id}'"
  | refused failure => failure.message

/-- What was being done when something went wrong. -/
inductive Setting where
  | reading (path : String)
  | document (path : String)
  | steps
  | pipelines
  | registering (variant : VariantKey)
deriving DecidableEq, Repr

def Setting.message : Setting → String
  | reading path => s!"Failed to read {path}"
  | document path => s!"Invalid document {path}"
  | steps => "Invalid step definitions"
  | pipelines => "Invalid pipeline definitions"
  | registering variant => s!"Failed to register pipeline {variant.outline}"

end LoadError

/-- An error with the settings around it, outermost first. -/
structure LoadError where
  settings : List LoadError.Setting := []
  cause : LoadError.Cause
deriving DecidableEq, Repr

namespace LoadError

def within (e : LoadError) (setting : Setting) : LoadError :=
  { e with settings := setting :: e.settings }

/-- All messages, outermost first. -/
def messages (e : LoadError) : List String :=
  e.settings.map Setting.message ++ [e.cause.message]

def message (e : LoadError) : String := ": ".intercalate e.messages

/-- A message below the first line of a report: the lines after its first one are
indented as far as that. -/
def indented (start margin : String) (message : String) : String :=
  start ++ ("\n" ++ margin).intercalate (message.splitOn "\n")

/-- A message with its number, set right in five columns. -/
def numbered (n : Nat) (message : String) : String :=
  let digits := toString n
  let blanks := String.ofList (List.replicate (5 - digits.length) ' ')
  indented (blanks ++ digits ++ ": ") "       " message

/-- The outermost message, and the others below it, numbered if there are several. -/
def report (e : LoadError) : String :=
  let causes (lines : List String) : String :=
    "\n\nCaused by:\n" ++ "\n".intercalate lines
  match e.messages with
  | [] => ""
  | [only] => only
  | [outer, cause] => outer ++ causes [indented "    " "    " cause]
  | outer :: rest => outer ++ causes (rest.zipIdx.map fun (m, n) => numbered n m)

end LoadError

end StepWeave

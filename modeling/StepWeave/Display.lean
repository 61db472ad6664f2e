import StepWeave.Event
import StepWeave.Json
import StepWeave.Registry
import StepWeave.Text.Theme

/-!
# How events and listings are shown
-/

namespace StepWeave

open Text

def Status.name : Status → String
  | created => "Created"
  | resolved => "Resolved"
  | running => "Running"
  | completed => "Completed"
  | failed => "Failed"

def Status.tint : Status → Tint
  | created => .dim
  | resolved => .blue
  | running => .yellow
  | completed => .green
  | failed => .red

def Mode.words : Mode → String
  | all => "all"
  | stepsOnly => "steps only"
  | afterOnly => "after only"
  | neither => "none"

def Recovery.words : Recovery → String
  | resume => "resuming with after-steps"
  | skipAfter => "skipping after-steps"

def Listing.toJson (l : Listing) : Json :=
  .fields [
    ("name", .string l.name),
    ("layer_id", .ofOption l.layer),
    ("delegate", l.delegate.elim .null fun (name, layer) =>
      .array [.string name, .ofOption layer]),
    ("steps", .strings l.steps),
    ("hooks", .strings l.hooks),
    ("interceptors", .strings l.interceptors),
    ("response_type", .string l.responseType)]

namespace Text.Theme

def status (t : Theme) (s : Status) : String := t.paint s.tint s.name.toUpper

def layer (t : Theme) : Option String → String
  | some layer => t.paint .cyan layer
  | none => t.paint .dim (layerText none)

def count (t : Theme) (n : Nat) : String := t.paint .cyan (toString n)

def event (t : Theme) : Event → String
  | .pipelineStarted id pipeline layer total =>
    s!"{t.sign .start} Running {t.paint .bold pipeline} for layer {t.layer layer} " ++
      s!"({t.count total} steps, {t.paint .dim id.short})"
  | .stepStarted step => "  " ++ t.paint .dim "·" ++ " " ++ t.paint .dim step
  | .stepCompleted step => s!"  {t.sign .done} {step}"
  | .stepFailed step error => s!"  {t.sign .failed} {step}: {t.paint .red error}"
  | .interceptorEntered interceptor mode =>
    s!"  {t.sign .note} interceptor {t.paint .bold interceptor} ({mode.words})"
  | .failureRecovered interceptor error recovery =>
    s!"  {t.sign .warning} {t.paint .bold interceptor} recovered from '{error}', " ++
      recovery.words
  | .pipelineStopped completed => s!"  {t.sign .stop} stopped after {t.count completed} steps"
  | .pipelineCompleted _ status completed duration =>
    let sign := if status = .completed then t.sign .done else t.sign .failed
    let time := duration.elim "" fun ms => s!" in {ms}ms"
    s!"{sign} {t.status status} ({completed} steps run{time})"

/-- A registered variant with its steps, and below it its delegate and interceptors. -/
def listing (t : Theme) (l : Listing) : String :=
  let steps := " → ".intercalate l.steps
  let delegate := l.delegate.elim "" fun (name, layer) =>
    s!"\n      delegates to {name} [{t.layer layer}]"
  let interceptors :=
    if l.interceptors.isEmpty then ""
    else "\n      interceptors: " ++ t.paint .yellow (", ".intercalate l.interceptors)
  s!"  {t.paint .bold l.name} [{t.layer l.layer}] " ++ steps ++ delegate ++ interceptors

end Text.Theme

end StepWeave

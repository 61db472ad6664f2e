import StepWeave.Command.Outcome
import StepWeave.Document

/-!
# Reports of the commands

A report is all that a command shows and how it ends.  A run holds its caller up
wherever a step pauses, so its report says where to wait.
-/

namespace StepWeave.Command

open Text

/-- A part of what a command does. -/
inductive Part where
  | say (text : String)
  | wait (millis : Nat)
deriving DecidableEq, Repr

def Part.isWait : Part → Bool
  | say _ => false
  | wait _ => true

structure Report where
  parts : List Part
  complaint : String := ""
  exitCode : Nat := 0
deriving DecidableEq, Repr

namespace Report

def output (r : Report) : String :=
  String.join (r.parts.map fun
    | .say text => text
    | .wait _ => "")

/-- The parts up to the last one that waits.  A run ends after them, so that they do not
depend on when it does. -/
def early (r : Report) : List Part :=
  (r.parts.reverse.dropWhile fun part => !part.isWait).reverse

def line (text : String) : Part := .say (text ++ "\n")

def lines (texts : List String) : List Part := texts.map line

def json (j : Json) : Part := line (j.pretty "")

def aborted (e : LoadError) : Report where
  parts := []
  complaint := "Error: " ++ e.report ++ "\n"
  exitCode := 1

end Report

open Report

/-! ## Running -/

def load (s : Source) : Except LoadError (Document × Registry) :=
  match Document.ofSource s with
  | .error e => .error e
  | .ok d =>
    match d.registry with
    | .error e => .error e
    | .ok r => .ok (d, r)

def recordPart? (theme : Theme) (json : Bool) : Record String → Option Part
  | .call c => if c.pause = 0 then none else some (.wait c.pause)
  | .event e => if json then none else some (line (theme.event e))

def upTo (limit : Nat) : List Part → List Part
  | [] => []
  | part :: rest =>
    if limit = 0 then []
    else
      match part with
      | .say text => .say text :: upTo limit rest
      | .wait millis => .wait (min millis limit) :: upTo (limit - millis) rest

def timedOut (theme : Theme) (o : RunOptions) (seconds : Nat) (parts : List Part) : Report :=
  let message := s!"Pipeline '{o.pipeline}' timed out after {seconds}s"
  let ending :=
    if o.json then
      json (.fields [
        ("pipeline", .string o.pipeline),
        ("layer", .ofOption o.layer),
        ("status", .string Status.failed.name),
        ("error", .string message)])
    else line s!"\n{theme.sign .failed} {theme.paint .red message}"
  { parts := upTo (seconds * 1000) parts ++ [ending]
    complaint := s!"ERROR {message}\n"
    exitCode := 1 }

def ended (theme : Theme) (o : RunOptions) (e : Execution String) (parts : List Part) : Report :=
  let summary :=
    if o.json then json (Outcome.of o e).toJson
    else line ("\n" ++ theme.paint .bold "Response:" ++ " " ++ e.work.response)
  match e.failure with
  | none => { parts := parts ++ [summary] }
  | some failure =>
    let notice :=
      "\n" ++ theme.sign .failed ++ " " ++ theme.paint .bold o.pipeline ++ " " ++
        theme.paint .red "failed"
    { parts := parts ++ [summary] ++ if o.json then [] else [line notice]
      complaint := s!"ERROR {failure.message}\n"
      exitCode := 1 }

def run (theme : Theme) (id : ExecutionId) (clock : Clock) (o : RunOptions) (s : Source) :
    Report :=
  match load s with
  | .error e => aborted e
  | .ok (_, registry) =>
    let e := o.execute registry id clock
    let parts := e.log.filterMap (recordPart? theme o.json)
    match o.timeout with
    | none => ended theme o e parts
    | some seconds =>
      if seconds * 1000 ≤ e.pause then timedOut theme o seconds parts
      else ended theme o e parts

/-! ## Validating -/

def validate (theme : Theme) (asJson : Bool) (s : Source) : Report :=
  let heading := if asJson then [] else [line s!"{theme.sign .note} Validating {s.path}..."]
  match load s with
  | .ok (d, r) =>
    let steps := d.toolbox.steps.length
    let interceptors := d.toolbox.interceptors.length
    let body :=
      if asJson then
        [json (.fields [
          ("valid", .bool true),
          ("steps", .number steps),
          ("interceptors", .number interceptors),
          ("pipelines", .array (r.listings.map Listing.toJson))])]
      else
        lines [
          s!"{theme.sign .done} Pipeline document is valid!",
          s!"  Steps: {theme.count steps}",
          s!"  Interceptors: {theme.count interceptors}",
          s!"  Pipelines: {theme.count r.names.length}",
          s!"  Variants: {theme.count r.size}"]
    { parts := heading ++ body }
  | .error e =>
    let body :=
      if asJson then
        [json (.fields [("valid", .bool false), ("error", .string e.message)])]
      else
        lines [
          s!"{theme.sign .failed} Validation failed:",
          s!"  {theme.paint .red e.message}"]
    { parts := heading ++ body, exitCode := 1 }

/-! ## Listing -/

def list (theme : Theme) (asJson : Bool) (s : Source) : Report :=
  match load s with
  | .error e => aborted e
  | .ok (_, r) =>
    if asJson then
      { parts := [json (.fields [("pipelines", .array (r.listings.map Listing.toJson))])] }
    else if r.isEmpty then
      { parts := [line s!"{theme.sign .warning} No pipelines defined in {s.path}"] }
    else
      { parts := line s!"{theme.sign .note} Pipelines in {s.path}:" ::
          lines (r.listings.map theme.listing) }

/-! ## Requests -/

def Request.file : Request → String
  | run options => options.file
  | validate file _ => file
  | list file _ => file

def Request.report (theme : Theme) (id : ExecutionId) (clock : Clock) (request : Request)
    (s : Source) : Report :=
  match request with
  | .run options => Command.run theme id clock options s
  | .validate _ asJson => Command.validate theme asJson s
  | .list _ asJson => Command.list theme asJson s

end StepWeave.Command

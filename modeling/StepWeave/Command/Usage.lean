import StepWeave.Command.Report

/-!
# Help and messages about arguments
-/

namespace StepWeave.Command

def programName : String := "layer-pipeline"

def programVersion : String := "0.1.0"

def Name.summary : Name → String
  | run => "Run a pipeline against a text response"
  | validate => "Validate a pipeline document"
  | list => "List the pipelines of a document"

namespace Switch

def summary : Switch → String
  | verbose => "Enable verbose logging"
  | help => "Print help"
  | version => "Print version"
  | json => "Output in JSON format"
  | file => "Path to pipeline YAML file"
  | pipeline => "Pipeline name"
  | layer => "Layer id used to select the variant"
  | var => "Context values (key=value), stored as strings"
  | initial => "Initial response text [default: ]"
  | timeout => "Give up after this many seconds"

def form (s : Switch) : String :=
  if s.takesValue then s!"--{s.long} <{s.long.toUpper}>" else s!"--{s.long}"

/-- Both forms, the short ones in a column of their own. -/
def forms (s : Switch) : String :=
  match s.short? with
  | some c => s!"-{c}, {s.form}"
  | none => "    " ++ s.form

end Switch

/-- Rows of two columns, indented. -/
def table (rows : List (String × String)) : String :=
  let width := (rows.map (·.1.length)).foldl max 0
  "\n".intercalate (rows.map fun (left, right) =>
    "  " ++ left ++ String.ofList (List.replicate (width - left.length + 2) ' ') ++ right)

def usage : Option Name → String
  | none => s!"Usage: {programName} [OPTIONS] <COMMAND>"
  | some name =>
    let required := (Switch.required name).map Switch.form
    " ".intercalate (s!"Usage: {programName} {name.text} [OPTIONS]" :: required)

def help (command : Option Name) : String :=
  let options := table ((Switch.known command).map fun s => (s.forms, s.summary))
  match command with
  | some name => s!"{name.summary}\n\n{usage command}\n\nOptions:\n{options}\n"
  | none =>
    let commands := table (Name.all.map (fun name => (name.text, name.summary)) ++
      [(Scan.helpWord, "Print this message or the help of the given subcommand(s)")])
    "Run named, layer-aware pipelines defined in YAML\n\n" ++ usage none ++
      s!"\n\nCommands:\n{commands}\n\nOptions:\n{options}\n"

namespace Refusal

def complaint : Refusal → String
  | help _ | version | nothingGiven => ""
  | missingCommand => s!"'{programName}' requires a subcommand but one was not provided"
  | unknownCommand text => s!"unrecognized subcommand '{text}'"
  | unknownArgument text => s!"unexpected argument '{text}' found"
  | missingValue option => s!"a value is required for '{option.form}' but none was supplied"
  | wrongValue option value => s!"invalid value '{value}' for '{option.form}'"
  | repeated switch => s!"the argument '{switch.form}' cannot be used multiple times"
  | surplusValue flag value =>
    s!"unexpected value '{value}' for '{flag.form}' found; no more were expected"
  | missingOption option => s!"the following required argument was not provided: {option.form}"

def report (r : Refusal) : Report :=
  match r with
  | help command => { parts := [.say (Command.help command)] }
  | version => { parts := [Report.line s!"{programName} {programVersion}"] }
  | nothingGiven => { parts := [], complaint := Command.help none, exitCode := r.exitCode }
  | _ =>
    { parts := []
      complaint := s!"error: {r.complaint}\n\n{usage none}\n"
      exitCode := r.exitCode }

end Refusal

end StepWeave.Command

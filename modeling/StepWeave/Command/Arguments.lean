import StepWeave.Command.Assignment

/-!
# Arguments of the program

The first argument without a hyphen names a command, and the arguments after it
belong to that command.  Options are written `--file x`, `--file=x`, `-f x`,
`-f=x` or `-fx`; short flags can be run together.  An option takes effect when
the next one is met or the arguments end, so of two faults an unknown argument
is noticed before a wrong value in front of it.
-/

namespace StepWeave.Command

/-- What a user can ask for. -/
inductive Name where
  | run
  | validate
  | list
deriving DecidableEq, Repr, Inhabited

def Name.text : Name → String
  | run => "run"
  | validate => "validate"
  | list => "list"

def Name.all : List Name := [run, validate, list]

def Name.ofText? (s : String) : Option Name := all.find? (·.text = s)

/-- Flags and options. -/
inductive Switch where
  | verbose
  | help
  | version
  | json
  | file
  | pipeline
  | layer
  | var
  | initial
  | timeout
deriving DecidableEq, Repr, Inhabited

namespace Switch

def long : Switch → String
  | verbose => "verbose"
  | help => "help"
  | version => "version"
  | json => "json"
  | file => "file"
  | pipeline => "pipeline"
  | layer => "layer"
  | var => "var"
  | initial => "initial"
  | timeout => "timeout"

def short? : Switch → Option Char
  | verbose => some 'v'
  | help => some 'h'
  | version => some 'V'
  | file => some 'f'
  | pipeline => some 'p'
  | layer => some 'l'
  | json | var | initial | timeout => none

def takesValue : Switch → Bool
  | verbose | help | version | json => false
  | file | pipeline | layer | var | initial | timeout => true

def isRepeatable (s : Switch) : Bool := s = var

/-- The switches before any command, or of a command. -/
def known : Option Name → List Switch
  | none => [verbose, help, version]
  | some .run => [file, pipeline, layer, var, initial, timeout, json, verbose, help]
  | some .validate | some .list => [file, json, verbose, help]

def required : Name → List Switch
  | .run => [file, pipeline]
  | .validate | .list => [file]

end Switch

/-- Why arguments are not carried out as a command. -/
inductive Refusal where
  /-- The user asked for help, on the program or on a command. -/
  | help (command : Option Name)
  | version
  | nothingGiven
  | missingCommand
  | unknownCommand (text : String)
  | unknownArgument (text : String)
  | missingValue (option : Switch)
  | wrongValue (option : Switch) (value : String)
  | repeated (switch : Switch)
  | surplusValue (flag : Switch) (value : String)
  | missingOption (option : Switch)
deriving DecidableEq, Repr

def Refusal.exitCode : Refusal → Nat
  | help _ | version => 0
  | _ => 2

/-! ## Scanning -/

/-- A number of seconds: decimal digits after an optional plus sign, of at most 64
bits. -/
def parseSeconds? (s : String) : Option Nat :=
  let digits := match s.toList with
    | '+' :: rest => rest
    | cs => cs
  if digits.isEmpty || !digits.all Char.isDigit then none
  else
    let n := digits.foldl (fun n d => n * 10 + (d.toNat - '0'.toNat)) 0
    if n < UInt64.size then some n else none

def Switch.accepts : Switch → String → Bool
  | var, value => (parsePair value).toOption.isSome
  | timeout, value => (parseSeconds? value).isSome
  | _, _ => true

/-- The arguments of one level as far as they have been read. -/
structure Scan where
  level : Option Name
  /-- Switches that have taken effect, in order, flags with an empty text. -/
  given : List (Switch × String) := []
  /-- The last option, with its value if that has been read. -/
  pending : Option (Switch × Option String) := none

namespace Scan

def has (s : Scan) (switch : Switch) : Bool := s.given.any (·.1 = switch)

def valueOf? (s : Scan) (switch : Switch) : Option String := s.given.lookup switch

def take (s : Scan) (switch : Switch) (value : String) : Except Refusal Scan :=
  if s.has switch && !switch.isRepeatable then .error (.repeated switch)
  else if switch.accepts value then .ok { s with given := s.given ++ [(switch, value)] }
  else .error (.wrongValue switch value)

def settle (s : Scan) : Except Refusal Scan :=
  match s.pending with
  | none => .ok s
  | some (option, none) => .error (.missingValue option)
  | some (option, some value) => { s with pending := none }.take option value

def isWaiting (s : Scan) : Bool := s.pending.any (·.2.isNone)

def flag (s : Scan) (switch : Switch) : Except Refusal Scan := do
  let s ← s.settle
  if switch = .help then .error (.help s.level)
  else if switch = .version then .error .version
  else s.take switch ""

/-- Read an option, with its value if that is part of the same argument. -/
def option (s : Scan) (switch : Switch) (value : Option String) : Except Refusal Scan := do
  let s ← s.settle
  match value with
  | some value => s.take switch value
  | none => return { s with pending := some (switch, none) }

def long (s : Scan) (body : List Char) : Except Refusal Scan :=
  let name := String.ofList (body.takeWhile (· ≠ '='))
  let value := match body.dropWhile (· ≠ '=') with
    | [] => none
    | _ :: value => some (String.ofList value)
  match (Switch.known s.level).find? (·.long = name) with
  | none => .error (.unknownArgument ("--" ++ name))
  | some switch =>
    if switch.takesValue then s.option switch value
    else
      match value with
      | some value => .error (.surplusValue switch value)
      | none => s.flag switch

/-- Read what follows one hyphen: flags, up to an option that takes the rest. -/
def short (s : Scan) : List Char → Except Refusal Scan
  | [] => .ok s
  | c :: rest =>
    match (Switch.known s.level).find? (·.short? = some c) with
    | none => .error (.unknownArgument (String.ofList ['-', c]))
    | some switch =>
      if switch.takesValue then
        s.option switch <| match rest with
          | [] => none
          | '=' :: value => some (String.ofList value)
          | value => some (String.ofList value)
      else
        match s.flag switch with
        | .error refusal => .error refusal
        | .ok s => short s rest

def stray (s : Scan) (arg : String) : Refusal :=
  match s.level with
  | none => .unknownCommand arg
  | some _ => .unknownArgument arg

def helpWord : String := "help"

def isCommand (s : Scan) (arg : String) : Bool :=
  s.level.isNone && (arg = helpWord || (Name.ofText? arg).isSome)

/-- The arguments after two hyphens that stand alone, none of which can be of use. -/
def trailing (s : Scan) : List String → Except Refusal Scan
  | [] => s.settle
  | arg :: _ => .error (if s.isCommand arg then .unknownArgument arg else s.stray arg)

/-- Read arguments up to a command, which is given back with the arguments after it. -/
def args (s : Scan) : List String → Except Refusal (Scan × List String)
  | [] => return (← s.settle, [])
  | arg :: rest =>
    if !s.isWaiting && s.isCommand arg then .ok (s, arg :: rest)
    else
      match arg.toList with
      | ['-', '-'] => return (← s.trailing rest, [])
      | '-' :: '-' :: body => do args (← s.long body) rest
      | '-' :: c :: body => do args (← s.short (c :: body)) rest
      | _ =>
        match s.pending with
        | some (option, none) => args { s with pending := some (option, some arg) } rest
        | _ => .error (s.stray arg)

end Scan

/-! ## Invocations -/

/-- How to run a pipeline. -/
structure RunOptions where
  file : String
  pipeline : String
  layer : Option String := none
  /-- Context values, in the order given. -/
  vars : List (String × String) := []
  initial : String := ""
  timeout : Option Nat := none
  json : Bool := false
deriving DecidableEq, Repr

inductive Request where
  | run (options : RunOptions)
  | validate (file : String) (json : Bool)
  | list (file : String) (json : Bool)
deriving DecidableEq, Repr

structure Invocation where
  request : Request
  verbose : Bool
deriving DecidableEq, Repr

namespace Invocation

def request? (command : Name) (s : Scan) : Except Refusal Request :=
  match (Switch.required command).find? fun option => !s.has option with
  | some option => .error (.missingOption option)
  | none =>
    let file := (s.valueOf? .file).getD ""
    let json := s.has .json
    match command with
    | .run =>
      .ok (.run {
        file
        pipeline := (s.valueOf? .pipeline).getD ""
        layer := s.valueOf? .layer
        vars := (s.given.filter (·.1 = .var)).filterMap fun g => (parsePair g.2).toOption
        initial := (s.valueOf? .initial).getD ""
        timeout := (s.valueOf? .timeout).bind parseSeconds?
        json })
    | .validate => .ok (.validate file json)
    | .list => .ok (.list file json)

def helpOn : List String → Refusal
  | [] => .help none
  | [name] =>
    if name = Scan.helpWord then .help none
    else
      match Name.ofText? name with
      | some command => .help (some command)
      | none => .unknownCommand name
  | name :: second :: _ =>
    if name = Scan.helpWord || (Name.ofText? name).isSome then .unknownCommand second
    else .unknownCommand name

def parse (args : List String) : Except Refusal Invocation := do
  let (top, rest) ← Scan.args { level := none } args
  match rest with
  | [] => .error (if top.given.isEmpty then .nothingGiven else .missingCommand)
  | word :: rest =>
    match Name.ofText? word with
    | none => .error (helpOn rest)
    | some command =>
      let (s, _) ← Scan.args { level := some command } rest
      let request ← request? command s
      return { request, verbose := top.has .verbose || s.has .verbose }

end Invocation

end StepWeave.Command

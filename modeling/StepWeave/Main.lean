import StepWeave.Command.Usage

/-!
# The program
-/

namespace StepWeave.Main

open Command

/-- Why a file could not be read.  Error numbers come with either sign. -/
def readError (e : IO.Error) : ReadError :=
  let has (code number : UInt32) : Bool := code = number || 0 - code = number
  match e with
  | .noFileOrDirectory _ _ _ => .notFound
  | .inappropriateType _ code _ => if has code 20 then .notDirectory else .isDirectory
  | .permissionDenied _ _ _ => .denied
  | .invalidArgument _ code _ => if has code 36 then .nameTooLong else .system (toString e)
  | _ => .system (toString e)

def readSource (path : String) : IO Source := do
  try
    return { path, content := .ok (← IO.FS.readBinFile path) }
  catch e => return { path, content := .error (readError e) }

/-- Pictures need a terminal for Unicode text; colours are shown on terminals, and
elsewhere if they are asked for. -/
def theme : IO Text.Theme := do
  let language := (← IO.getEnv "LANG").getD ""
  let forced := (← IO.getEnv "CLICOLOR_FORCE").getD "0" ≠ "0"
  let wanted := (← IO.getEnv "CLICOLOR").getD "1" ≠ "0" && (← IO.getEnv "NO_COLOR").isNone
  let terminal ← (← IO.getStdout).isTty
  return { colors := forced || (wanted && terminal)
           pictures := language.toUpper.endsWith "UTF-8" }

def newId : IO ExecutionId := do
  let bytes ← IO.getRandomBytes 16
  let digits := bytes.toList.flatMap fun b =>
    [Nat.digitChar (b.toNat / 16), Nat.digitChar (b.toNat % 16)]
  return .ofDigits (digits.take 12 ++ '4' :: (digits.drop 13).take 3 ++ '8' :: digits.drop 17)

/-- The time now, as far as durations are concerned. -/
def now : IO Instant := return .ofNanos (← IO.monoNanosNow)

/-- Show parts of a report, waiting where they say so. -/
def performParts (parts : List Part) : IO Unit := do
  for part in parts do
    match part with
    | .say text =>
      IO.print text
      (← IO.getStdout).flush
    | .wait millis => IO.sleep (min millis (UInt32.size - 1)).toUInt32

def perform (r : Report) : IO UInt32 := do
  performParts r.parts
  IO.eprint r.complaint
  return r.exitCode.toUInt32

def program (args : List String) : IO UInt32 := do
  match Invocation.parse args with
  | .error refusal => perform refusal.report
  | .ok invocation =>
    let source ← readSource invocation.request.file
    let theme ← theme
    let id ← newId
    let start ← now
    let early := (invocation.request.report theme id start source).early
    performParts early
    -- The clock is read again when all waiting is over.
    let report := invocation.request.report theme id ⟨start, ← now⟩ source
    perform { report with parts := report.parts.drop early.length }

end StepWeave.Main

def main (args : List String) : IO UInt32 := StepWeave.Main.program args

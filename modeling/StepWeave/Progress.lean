/-!
# Progress of an execution

A `Progress` records how far one execution has come.  It goes from `created`
over `resolved` and `running` to `completed` or `failed`; an execution whose
pipeline cannot be resolved goes straight to `failed`.
-/

namespace StepWeave

def nanosPerSecond : Nat := 1000000000

/-- A point in time (UTC). -/
structure Instant where
  /-- Seconds since the start of 1970, leap seconds not counted. -/
  second : Int
  /-- Nanoseconds within the second, which go on counting in a leap second after it. -/
  nanos : Nat := 0
deriving DecidableEq, Repr, Inhabited

namespace Instant

def ofNanos (n : Nat) : Instant := ⟨n / nanosPerSecond, n % nanosPerSecond⟩

def secondOfDay (t : Instant) : Int := t.second % 86400

def isInLeapSecond (t : Instant) : Bool := nanosPerSecond ≤ t.nanos

/-- What a leap second adds to the seconds between two instants.  The only one that counts
is one in which the instant with the earlier time of day lies, for then it is over at the
later time of day; the instants tell nothing about others. -/
def leapBetween (start stop : Instant) : Int :=
  if start.secondOfDay < stop.secondOfDay && start.isInLeapSecond then 1
  else if stop.secondOfDay < start.secondOfDay && stop.isInLeapSecond then -1
  else 0

/-- Whole milliseconds from `start` to `stop`, rounded toward zero. -/
def millisBetween (start stop : Instant) : Int :=
  let seconds := stop.second - start.second + leapBetween start stop
  Int.tdiv (seconds * nanosPerSecond + stop.nanos - start.nanos) 1000000

end Instant

/-- The stages of an execution. -/
inductive Status where
  | created
  | resolved
  | running
  | completed
  | failed
deriving DecidableEq, Repr, Inhabited

def Status.isTerminal : Status → Bool
  | completed | failed => true
  | created | resolved | running => false

/-- Bookkeeping of one execution. -/
structure Progress where
  pipeline : String
  layer : Option String
  status : Status := .created
  total : Nat := 0
  completed : Nat := 0
  startedAt : Option Instant := none
  finishedAt : Option Instant := none
deriving DecidableEq, Repr

namespace Progress

def new (pipeline : String) (layer : Option String) : Progress := { pipeline, layer }

/-- The pipeline was found and has `total` steps. -/
def resolve (p : Progress) (total : Nat) : Progress := { p with status := .resolved, total }

def start (p : Progress) (now : Instant) : Progress :=
  { p with status := .running, startedAt := some now }

/-- One more step has returned without failing.  The count has 64 bits and starts over at
zero. -/
def stepCompleted (p : Progress) : Progress :=
  { p with completed := (p.completed + 1) % UInt64.size }

/-- The execution is over.  The first end counts. -/
def finish (p : Progress) (status : Status) (now : Instant) : Progress :=
  if p.status.isTerminal then p else { p with status, finishedAt := some now }

def complete (p : Progress) (now : Instant) : Progress := p.finish .completed now

def fail (p : Progress) (now : Instant) : Progress := p.finish .failed now

/-- Milliseconds between start and end, once both are known. -/
def durationMillis (p : Progress) : Option Int :=
  match p.startedAt, p.finishedAt with
  | some start, some stop => some (start.millisBetween stop)
  | _, _ => none

end Progress

end StepWeave

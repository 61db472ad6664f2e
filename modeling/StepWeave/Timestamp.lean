import StepWeave.Progress

/-!
# Timestamps

Instants are written as a date, a time of day and an offset from UTC, in the form
of RFC 3339 or more loosely: numbers need no leading zeros, white space may stand
around them, a year with a sign may have any length, and the colon of the offset may
be missing.
-/

namespace StepWeave.Timestamp

/-! ## Numbers and separators -/

def isSpace (c : Char) : Bool :=
  let n := c.toNat
  (0x09 ≤ n && n ≤ 0x0D) || n = 0x20 || n = 0x85 || n = 0xA0 || n = 0x1680 ||
    (0x2000 ≤ n && n ≤ 0x200A) || n = 0x2028 || n = 0x2029 || n = 0x202F || n = 0x205F ||
    n = 0x3000

def skipSpace (cs : List Char) : List Char := cs.dropWhile isSpace

def ofDigits (digits : List Char) : Nat :=
  digits.foldl (fun n d => n * 10 + (d.toNat - '0'.toNat)) 0

/-- A number of at most `width` digits, and what follows them. -/
def number? (width : Nat) (cs : List Char) : Option (Nat × List Char) :=
  let digits := (cs.take width).takeWhile Char.isDigit
  if digits.isEmpty then none else some (ofDigits digits, cs.drop digits.length)

/-- A number of at most two digits, after white space. -/
def part? (cs : List Char) : Option (Nat × List Char) := number? 2 (skipSpace cs)

/-- What follows one of the characters `allowed`. -/
def mark? (allowed : List Char) : List Char → Option (List Char)
  | c :: rest => if allowed.contains c then some rest else none
  | [] => none

/-! ## Dates -/

def isLeap (year : Int) : Bool := year % 4 = 0 && (year % 100 ≠ 0 || year % 400 = 0)

def daysInMonth (year : Int) (month : Nat) : Nat :=
  if month = 2 then (if isLeap year then 29 else 28)
  else if [4, 6, 9, 11].contains month then 30 else 31

/-- Days from the first day of the year 0 to the first day of a year. -/
def daysBefore (year : Int) : Int :=
  year * 365 + (year + 3) / 4 - (year + 99) / 100 + (year + 399) / 400

def dayNumber (year : Int) (month day : Nat) : Int :=
  let inYear := (List.range (month - 1)).foldl (fun n m => n + daysInMonth year (m + 1)) (day - 1)
  daysBefore year + inYear - daysBefore 1970

/-- Whether a second is within the years that an instant may lie in. -/
def isInRange (second : Int) : Bool :=
  dayNumber (-262143) 1 1 * 86400 ≤ second && second < dayNumber 262143 1 1 * 86400

/-- A year of at most four digits, or of any number of them after a sign. -/
def year? (cs : List Char) : Option (Int × List Char) :=
  match cs with
  | '-' :: cs => (number? cs.length cs).map fun (n, cs) => (-(n : Int), cs)
  | '+' :: cs => (number? cs.length cs).map fun (n, cs) => ((n : Int), cs)
  | cs => (number? 4 cs).map fun (n, cs) => ((n : Int), cs)

def date? (cs : List Char) : Option (Int × List Char) := do
  let (year, cs) ← year? (skipSpace cs)
  let (month, cs) ← part? (← mark? ['-'] (skipSpace cs))
  let (day, cs) ← part? (← mark? ['-'] (skipSpace cs))
  if month = 0 || 12 < month || day = 0 || daysInMonth year month < day then none
  return (dayNumber year month day, cs)

/-! ## Times of day -/

/-- Nanoseconds after the point of a second, if there is one; later digits are dropped. -/
def fraction? : List Char → Option (Nat × List Char)
  | '.' :: cs =>
    let digits := cs.takeWhile Char.isDigit
    if digits.isEmpty then none
    else
      some (ofDigits ((digits ++ List.replicate 9 '0').take 9), cs.dropWhile Char.isDigit)
  | cs => some (0, cs)

/-- The second of the day and the nanoseconds in it.  Second 60 is a leap second, which
goes on counting in the second before it. -/
def time? (cs : List Char) : Option (Nat × Nat × List Char) := do
  let (hour, cs) ← part? cs
  let (minute, cs) ← part? (← mark? [':'] (skipSpace cs))
  let (second, cs) ← part? (← mark? [':'] (skipSpace cs))
  let (nanos, cs) ← fraction? cs
  if 23 < hour || 59 < minute || 60 < second then none
  let minutes := hour * 60 + minute
  if second = 60 then return (minutes * 60 + 59, nanosPerSecond + nanos, cs)
  return (minutes * 60 + second, nanos, cs)

/-! ## Offsets -/

def twoDigits? : List Char → Option (Nat × List Char)
  | a :: b :: cs => if a.isDigit && b.isDigit then some (ofDigits [a, b], cs) else none
  | _ => none

/-- An offset from UTC in minutes, with its sign. -/
def signedOffset? (cs : List Char) : Option (Int × List Char) := do
  let (hours, rest) ← twoDigits? (cs.drop 1)
  let (minutes, rest) ← twoDigits? (rest.dropWhile fun c => c = ':' || isSpace c)
  if 23 < hours || 59 < minutes then none
  let offset : Int := hours * 60 + minutes
  match cs with
  | '+' :: _ => some (offset, rest)
  | '-' :: _ | '\u2212' :: _ => some (-offset, rest)
  | _ => none

/-- An offset from UTC in minutes, or a word for UTC itself. -/
def offset? (cs : List Char) : Option (Int × List Char) :=
  if (cs.take 3).map Char.toUpper = ['U', 'T', 'C'] then some (0, cs.drop 3)
  else
    match cs with
    | 'Z' :: cs | 'z' :: cs => some (0, cs)
    | cs => signedOffset? cs

/-! ## Timestamps -/

def read? (s : String) : Option Instant := do
  let (day, cs) ← date? s.toList
  let (second, nanos, cs) ← time? (← mark? ['T', 't', ' '] cs)
  let (offset, cs) ← offset? (skipSpace cs)
  if !(skipSpace cs).isEmpty then none
  let second := day * 86400 + second - offset * 60
  if !isInRange second then none
  return { second, nanos }

end StepWeave.Timestamp

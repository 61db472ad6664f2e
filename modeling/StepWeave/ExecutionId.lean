/-!
# Identities of executions

An execution is identified by 128 bits, which are written as 32 hexadecimal digits.
-/

namespace StepWeave

/-- The identity of one execution, in its written form: small letters, and hyphens
between groups of digits. -/
structure ExecutionId where
  text : String
deriving DecidableEq, Repr, Inhabited

namespace ExecutionId

def groups : List Nat := [8, 4, 4, 4, 12]

def cut : List Nat → List Char → List String
  | [], _ => []
  | n :: sizes, digits => String.ofList (digits.take n) :: cut sizes (digits.drop n)

def ofDigits (digits : List Char) : ExecutionId := ⟨"-".intercalate (cut groups digits)⟩

def isHexDigit (c : Char) : Bool :=
  c.isDigit || ('a' ≤ c && c ≤ 'f') || ('A' ≤ c && c ≤ 'F')

def hyphenated? (cs : List Char) : Option (List Char) :=
  let parts := (String.ofList cs).splitOn "-"
  if parts.map String.length = groups then some (parts.flatMap String.toList) else none

def unwrap (cs : List Char) : List Char :=
  let scheme := "urn:uuid:".toList
  if cs.head? = some '\x7b' && cs.getLast? = some '\x7d' then (cs.drop 1).dropLast
  else if cs.take scheme.length = scheme then cs.drop scheme.length
  else cs

/-- Read an identity.  Its digits may stand without hyphens; with them it may be in
braces or after a scheme.  Capital letters count like small ones. -/
def ofText? (s : String) : Option ExecutionId := do
  let cs := s.toList
  let digits ← if cs.length = 32 then some cs else hyphenated? (unwrap cs)
  if digits.all isHexDigit then some (ofDigits (digits.map Char.toLower)) else none

/-- The first eight characters, enough to tell executions apart in a log. -/
def short (id : ExecutionId) : String := (id.text.take 8).toString

end ExecutionId

end StepWeave

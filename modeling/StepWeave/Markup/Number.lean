import StepWeave.Markup.Token.Scalar

/-!
# Numbers in scalars

A plain scalar may be a number.  Whole numbers are written in decimal, or in base
16, 8 or 2 after `0x`, `0o` or `0b`; digits after a leading zero are no number.
Other numbers are decimals with an optional exponent that a double can hold.
-/

namespace StepWeave.Markup.Number

/-- The number that the digits of a base stand for; there has to be one. -/
def ofDigits? (base : Nat) (digits : List Char) : Option Nat :=
  if digits.isEmpty then none
  else digits.foldlM (fun n d => do
    let d ← (hexDigit? d).filter (· < base)
    return n * base + d) 0

def isPadded : List Char → Bool
  | '0' :: d :: rest => (d :: rest).all Char.isDigit
  | _ => false

def magnitude? : List Char → Option Nat
  | '0' :: 'x' :: digits => ofDigits? 16 digits
  | '0' :: 'o' :: digits => ofDigits? 8 digits
  | '0' :: 'b' :: digits => ofDigits? 2 digits
  | digits => if isPadded digits then none else ofDigits? 10 digits

/-- A whole number as it is written: its magnitude, and whether a minus sign stands
before it. -/
structure Whole where
  negative : Bool
  magnitude : Nat
deriving DecidableEq, Repr, Inhabited

def Whole.ofChars? : List Char → Option Whole
  | '-' :: cs => (magnitude? cs).map (⟨true, ·⟩)
  | '+' :: cs => (magnitude? cs).map (⟨false, ·⟩)
  | cs => (magnitude? cs).map (⟨false, ·⟩)

/-- Whether the number fits into so many bits, one of which is for a minus sign. -/
def Whole.fits (bits : Nat) (n : Whole) : Bool :=
  if n.negative then n.magnitude ≤ 1 <<< (bits - 1) else n.magnitude < 1 <<< bits

/-- Half a unit above the largest double, from where on numbers are infinite. -/
def doubleBound : Nat := 1 <<< 1024 - 1 <<< 970

/-- Whether `mantissa` times ten to the power `exponent` is finite as a double. -/
def isFinite (mantissa : Nat) (exponent : Int) : Bool :=
  let size := (Nat.toDigits 10 mantissa).length + exponent
  if mantissa = 0 || size < 300 then true
  else if 310 < size then false
  else if exponent < 0 then mantissa < doubleBound * Nat.pow 10 exponent.natAbs
  else mantissa * Nat.pow 10 exponent.natAbs < doubleBound

def exponent? : List Char → Option Int
  | '-' :: digits => (ofDigits? 10 digits).map fun n => -(n : Int)
  | '+' :: digits => (ofDigits? 10 digits).map Int.ofNat
  | digits => (ofDigits? 10 digits).map Int.ofNat

/-- Whether the characters are an unsigned decimal that a double can hold. -/
def isDecimal (cs : List Char) : Bool :=
  let whole := cs.takeWhile Char.isDigit
  let rest := cs.dropWhile Char.isDigit
  let (fraction, rest) :=
    match rest with
    | '.' :: rest => (rest.takeWhile Char.isDigit, rest.dropWhile Char.isDigit)
    | _ => ([], rest)
  let exponent :=
    match rest with
    | [] => some 0
    | e :: rest => if e = 'e' || e = 'E' then exponent? rest else none
  match ofDigits? 10 (whole ++ fraction), exponent with
  | some mantissa, some exponent => isFinite mantissa (exponent - fraction.length)
  | _, _ => false

/-- Whether a text is a number with a point or an exponent, too large a whole number, or
one of the words for infinity and for no number. -/
def isReal (s : String) : Bool :=
  s ∈ [".inf", ".Inf", ".INF", "+.inf", "+.Inf", "+.INF", "-.inf", "-.Inf", "-.INF",
    ".nan", ".NaN", ".NAN"] ||
  match s.toList with
  | '+' :: cs | '-' :: cs => isDecimal cs
  | cs => isDecimal cs

end StepWeave.Markup.Number

/-!
# Reading characters

A `Cursor` is what is left of a text, with the place in the text where that
starts.  Lines end at a line feed, a carriage return, both together, a next-line
character, or one of the two Unicode separators.
-/

namespace StepWeave.Markup

/-! ## Character classes -/

def isBlank (c : Char) : Bool := c = ' ' || c = '\t'

def isBreak (c : Char) : Bool :=
  c = '\n' || c = '\r' || c = '\u0085' || c = '\u2028' || c = '\u2029'

def isBlankOrBreak (c : Char) : Bool := isBlank c || isBreak c

/-- The mark that tells the order of the bytes of a text, which may begin a line. -/
def byteOrderMark : Char := '\ufeff'

/-- Letters, digits, hyphen and underscore of ASCII, which names are made of. -/
def isWord (c : Char) : Bool := c.isAlphanum || c = '-' || c = '_'

def isAllowed (c : Char) : Bool :=
  let n := c.toNat
  n = 0x09 || n = 0x0A || n = 0x0D || n = 0x85 || (0x20 ≤ n && n ≤ 0x7E) ||
    (0xA0 ≤ n && n ≤ 0xD7FF) || (0xE000 ≤ n && n ≤ 0xFFFD) || 0x10000 ≤ n

/-- A line break as it stands in the value of a scalar: the Unicode separators stay,
all others become a line feed. -/
def breakText (c : Char) : Char := if c = '\u2028' || c = '\u2029' then c else '\n'

/-! ## Places -/

/-- A place in a text: the bytes before it, the lines before it, and the characters
before it on its own line. -/
structure Mark where
  offset : Nat := 0
  line : Nat := 0
  column : Nat := 0
deriving DecidableEq, Repr, Inhabited

namespace Mark

def right (m : Mark) (c : Char) : Mark :=
  { m with offset := m.offset + c.utf8Size, column := m.column + 1 }

def along (m : Mark) (cs : List Char) : Mark := cs.foldl right m

def down (m : Mark) (size : Nat) : Mark := ⟨m.offset + size, m.line + 1, 0⟩

end Mark

/-! ## Cursors -/

/-- The rest of a text and the place where it starts. -/
structure Cursor where
  mark : Mark := {}
  rest : List Char
deriving Repr, Inhabited

namespace Cursor

def peek? (c : Cursor) : Option Char := c.rest.head?

def sees (c : Cursor) (x : Char) : Bool := c.rest.head? = some x

/-- Whether a blank, a line break or the end is `n` characters ahead. -/
def endsWordAt (c : Cursor) (n : Nat) : Bool :=
  match c.rest[n]? with
  | none => true
  | some x => isBlankOrBreak x

/-- Go on by `n` characters of a line. -/
def skip (c : Cursor) (n : Nat := 1) : Cursor :=
  ⟨c.mark.along (c.rest.take n), c.rest.drop n⟩

/-- Take the characters of a line that satisfy `p`. -/
def takeWhile (c : Cursor) (p : Char → Bool) : List Char × Cursor :=
  let taken := c.rest.takeWhile p
  (taken, ⟨c.mark.along taken, c.rest.dropWhile p⟩)

def skipWhile (c : Cursor) (p : Char → Bool) : Cursor := (c.takeWhile p).2

/-- Go on past the line break that comes next, if one does. -/
def skipBreak (c : Cursor) : Cursor :=
  match c.rest with
  | '\r' :: '\n' :: r => ⟨c.mark.down 2, r⟩
  | x :: r => if isBreak x then ⟨c.mark.down x.utf8Size, r⟩ else c
  | [] => c

/-- The line break that comes next, as scalars hold it. -/
def takeBreak (c : Cursor) : List Char × Cursor :=
  match c.rest with
  | [] => ([], c)
  | x :: _ => if isBreak x then ([breakText x], c.skipBreak) else ([], c)

def skipLine (c : Cursor) : Cursor := c.skipWhile fun x => !isBreak x

/-- Whether three characters `x` stand alone at the start of a line, as at the
borders of documents. -/
def atBorder (c : Cursor) (x : Char) : Bool :=
  c.mark.column = 0 && c.rest.take 3 = [x, x, x] && c.endsWordAt 3

def atAnyBorder (c : Cursor) : Bool := c.atBorder '-' || c.atBorder '.'

end Cursor

end StepWeave.Markup

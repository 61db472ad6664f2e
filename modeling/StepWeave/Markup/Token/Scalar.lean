import StepWeave.Markup.Cursor
import StepWeave.Markup.Token

/-!
# The text of scalars

Scalars are written plain, between quotes or as a block.  Inside the first two a
line break counts as a blank, and further line breaks stay; a block keeps its
line breaks or folds them.
-/

namespace StepWeave.Markup

/-! ## Gaps between words -/

/-- White space between the words of a scalar. -/
structure Gap where
  /-- The blanks before any line break. -/
  blanks : List Char := []
  /-- Whether the line was left. -/
  broken : Bool := false
  /-- The first line break. -/
  first : List Char := []
  /-- The line breaks after it. -/
  more : List Char := []
deriving Inhabited

namespace Gap

def addBlank (g : Gap) (c : Char) : Gap :=
  if g.broken then g else { g with blanks := g.blanks ++ [c] }

def addBreak (g : Gap) (c : Char) : Gap :=
  if g.broken then { g with more := g.more ++ [breakText c] }
  else { g with blanks := [], broken := true, first := [breakText c] }

/-- What the gap contributes to the text: its blanks, or its line breaks with a
first line feed folded. -/
def text (g : Gap) : List Char :=
  if !g.broken then g.blanks
  else if g.first = ['\n'] then (if g.more.isEmpty then [' '] else g.more)
  else g.first ++ g.more

end Gap

/-! ## Plain scalars -/

def isFlowIndicator (c : Char) : Bool :=
  c = ',' || c = '[' || c = ']' || c = '\x7b' || c = '\x7d'

/-- Read on in a plain scalar.  `words` holds the text so far, last character first;
`gap` the white space after it, and `inWord` is true if there is none.  Gives
the text, whether the line was left after it, and the place after that. -/
def plainFrom (inFlow : Bool) (indent : Nat) (words : List Char) (gap : Gap) (inWord : Bool)
    (m : Mark) : List Char → Option (List Char × Bool × Cursor)
  | [] => some (words, gap.broken, ⟨m, []⟩)
  | '\r' :: '\n' :: r => plainFrom inFlow indent words (gap.addBreak '\n') false (m.down 2) r
  | c :: r =>
    if isBlank c then
      if gap.broken && m.column < indent && c = '\t' then none
      else plainFrom inFlow indent words (gap.addBlank c) false (m.right c) r
    else if isBreak c then
      plainFrom inFlow indent words (gap.addBreak c) false (m.down c.utf8Size) r
    else
      let here : Cursor := ⟨m, c :: r⟩
      let stop := some (words, gap.broken, here)
      if !inWord && (here.atAnyBorder || c = '#') then stop
      else if !inWord && !words.isEmpty && !inFlow && m.column < indent then stop
      else if inFlow && c = ':' && (r.head?.any fun d => d = '?' || isFlowIndicator d) then none
      else if (c = ':' && here.endsWordAt 1) || (inFlow && isFlowIndicator c) then stop
      else plainFrom inFlow indent (c :: (gap.text.reverse ++ words)) {} true (m.right c) r

/-- A plain scalar: its text, whether the line was left after it, and the place after
the white space behind it. -/
def scanPlain (inFlow : Bool) (indent : Nat) (c : Cursor) : Option (String × Bool × Cursor) :=
  (plainFrom inFlow indent [] {} false c.mark c.rest).map fun (words, broken, c) =>
    (String.ofList words.reverse, broken, c)

/-! ## Quoted scalars -/

def hexDigit? (c : Char) : Option Nat :=
  if c.isDigit then some (c.toNat - '0'.toNat)
  else if 'a' ≤ c && c ≤ 'f' then some (c.toNat - 'a'.toNat + 10)
  else if 'A' ≤ c && c ≤ 'F' then some (c.toNat - 'A'.toNat + 10)
  else none

/-- The character with the number given by exactly `n` hexadecimal digits. -/
def hexChar? (n : Nat) (cs : List Char) : Option Char := do
  let digits ← (cs.take n).mapM hexDigit?
  let code := digits.foldl (fun acc d => acc * 16 + d) 0
  if digits.length = n && (code < 0xD800 || (0xDFFF < code && code ≤ 0x10FFFF)) then
    some (Char.ofNat code)
  else none

/-- The character that an escape stands for, with the number of characters after the
backslash. -/
def escape? : List Char → Option (Char × Nat)
  | '0' :: _ => some ('\x00', 1)
  | 'a' :: _ => some ('\x07', 1)
  | 'b' :: _ => some ('\x08', 1)
  | 't' :: _ | '\t' :: _ => some ('\t', 1)
  | 'n' :: _ => some ('\n', 1)
  | 'v' :: _ => some ('\x0b', 1)
  | 'f' :: _ => some ('\x0c', 1)
  | 'r' :: _ => some ('\r', 1)
  | 'e' :: _ => some ('\x1b', 1)
  | ' ' :: _ => some (' ', 1)
  | '"' :: _ => some ('"', 1)
  | '/' :: _ => some ('/', 1)
  | '\\' :: _ => some ('\\', 1)
  | 'N' :: _ => some ('\u0085', 1)
  | '_' :: _ => some ('\u00a0', 1)
  | 'L' :: _ => some ('\u2028', 1)
  | 'P' :: _ => some ('\u2029', 1)
  | 'x' :: r => (hexChar? 2 r).map (·, 3)
  | 'u' :: r => (hexChar? 4 r).map (·, 5)
  | 'U' :: r => (hexChar? 8 r).map (·, 9)
  | _ => none

/-- Read on between quotes; the arguments are as for plain scalars. -/
def quotedFrom (single : Bool) (words : List Char) (gap : Gap) (m : Mark) (cs : List Char) :
    Option (List Char × Cursor) :=
  match cs with
  | [] => none
  | '\r' :: '\n' :: r => quotedFrom single words (gap.addBreak '\n') (m.down 2) r
  | c :: r =>
    if isBlank c then quotedFrom single words (gap.addBlank c) (m.right c) r
    else if isBreak c then quotedFrom single words (gap.addBreak c) (m.down c.utf8Size) r
    else if (Cursor.mk m (c :: r)).atAnyBorder then none
    else
      let words := gap.text.reverse ++ words
      if single then
        if c = '\'' then
          match r with
          | '\'' :: r => quotedFrom single ('\'' :: words) {} ((m.right c).right c) r
          | _ => some (words, ⟨m.right c, r⟩)
        else quotedFrom single (c :: words) {} (m.right c) r
      else if c = '"' then some (words, ⟨m.right c, r⟩)
      else if c = '\\' then
        match r with
        | '\r' :: '\n' :: r => quotedFrom single words { broken := true } ((m.right c).down 2) r
        | d :: s =>
          if isBreak d then
            quotedFrom single words { broken := true } ((m.right c).down d.utf8Size) s
          else
            match escape? (d :: s) with
            | none => none
            | some (x, n) =>
              let m := m.along (c :: (d :: s).take n)
              quotedFrom single (x :: words) {} m ((d :: s).drop n)
        | [] => none
      else quotedFrom single (c :: words) {} (m.right c) r
termination_by cs.length
decreasing_by all_goals simp_all <;> omega

/-- A scalar between quotes, from the opening one on. -/
def scanQuoted (single : Bool) (c : Cursor) : Option (String × Cursor) :=
  (quotedFrom single [] {} c.skip.mark c.skip.rest).map fun (words, c) =>
    (String.ofList words.reverse, c)

/-! ## Block scalars -/

/-- What becomes of the line breaks at the end of a block. -/
inductive Chomping where
  | strip
  | clip
  | keep
deriving DecidableEq, Repr, Inhabited

/-- The indicators after the one that opens a block: chomping and indentation, in
either order. -/
def blockHeader (c : Cursor) : Option (Chomping × Nat × Cursor) :=
  let chomping? (c : Cursor) : Option Chomping :=
    if c.sees '+' then some .keep else if c.sees '-' then some .strip else none
  let digit? (c : Cursor) : Option Nat :=
    match c.peek? with
    | some d => if d.isDigit then some (d.toNat - '0'.toNat) else none
    | none => none
  match chomping? c with
  | some chomping =>
    match digit? c.skip with
    | some 0 => none
    | some n => some (chomping, n, c.skip 2)
    | none => some (chomping, 0, c.skip)
  | none =>
    match digit? c with
    | some 0 => none
    | some n =>
      match chomping? c.skip with
      | some chomping => some (chomping, n, c.skip 2)
      | none => some (.clip, n, c.skip)
    | none => some (.clip, 0, c)

/-- Skip indentation and empty lines.  `indent` is 0 as long as it is not known;
`deepest` is the largest indentation seen.  Gives that, the line breaks and the
place of the first other character. -/
def blockGap (indent deepest : Nat) (breaks : List Char) (m : Mark) :
    List Char → Option (Nat × List Char × Cursor)
  | [] => some (max deepest m.column, breaks, ⟨m, []⟩)
  | '\r' :: '\n' :: r =>
    blockGap indent (max deepest m.column) (breaks ++ ['\n']) (m.down 2) r
  | c :: r =>
    let open? := indent = 0 || m.column < indent
    if open? && c = ' ' then blockGap indent deepest breaks (m.right c) r
    else if open? && c = '\t' then none
    else if isBreak c then
      blockGap indent (max deepest m.column) (breaks ++ [breakText c]) (m.down c.utf8Size) r
    else some (max deepest m.column, breaks, ⟨m, c :: r⟩)

/-- The lines of a block.  `leading` is the line break before the line that comes
next, `trailing` those of the empty lines after it, and `indented` tells whether
the line before started with a blank. -/
def blockLines (literal : Bool) (chomping : Chomping) (indent : Nat) :
    (fuel : Nat) → (text leading trailing : List Char) → (indented : Bool) → Cursor →
      Option (List Char × Cursor)
  | 0, _, _, _, _, _ => none
  | fuel + 1, text, leading, trailing, indented, c =>
    if c.mark.column = indent && !c.rest.isEmpty then
      let blank := c.peek?.any isBlank
      let joint :=
        if !literal && leading = ['\n'] && !indented && !blank then
          if trailing.isEmpty then [' '] else []
        else leading
      let (line, c) := c.takeWhile fun x => !isBreak x
      let (leading, c) := c.takeBreak
      match blockGap indent 0 [] c.mark c.rest with
      | none => none
      | some (_, after, c) =>
        blockLines literal chomping indent fuel (text ++ joint ++ trailing ++ line) leading after
          blank c
    else
      let tail :=
        match chomping with
        | .strip => []
        | .clip => leading
        | .keep => leading ++ trailing
      some (text ++ tail, c)

/-- A block scalar, from the character that opens it on, inside a collection with the
given indentation. -/
def scanBlock (literal : Bool) (parent : Int) (c : Cursor) : Option (String × Cursor) := do
  let (chomping, increment, c) ← blockHeader c.skip
  let c := c.skipWhile isBlank
  let c := if c.sees '#' then c.skipLine else c
  if !(c.peek?.all isBreak) then none
  let c := c.skipBreak
  let wanted := if increment = 0 then 0 else (max parent 0).toNat + increment
  let (deepest, breaks, c) ← blockGap wanted 0 [] c.mark c.rest
  let indent := if wanted = 0 then max deepest (max (parent + 1) 1).toNat else wanted
  let (text, c) ←
    blockLines literal chomping indent (c.rest.length + 1) [] [] breaks false c
  return (String.ofList text, c)

end StepWeave.Markup

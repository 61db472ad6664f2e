import StepWeave.Markup.Token.Scalar

/-!
# From text to tokens

Block collections are not written out in the text: they open where a line is
indented further than the collection around it and close where it is indented
less.  A key is recognised only by the colon after it, so the lexer remembers
where a key may have begun, and puts the tokens for the key and for the mapping
there once the colon is seen.
-/

namespace StepWeave.Markup

/-- A place where a key may have begun. -/
structure SimpleKey where
  /-- Whether the line makes no sense unless a key begins here. -/
  required : Bool
  /-- The number of tokens before it. -/
  position : Nat
  mark : Mark
deriving Repr, Inhabited

/-- The lexer between two tokens. -/
structure Lexer where
  cursor : Cursor
  tokens : Array Token := #[]
  /-- Whether a key may begin at the next token. -/
  keyAllowed : Bool := true
  /-- The possible key of each flow collection, innermost first, and of the block. -/
  keys : List (Option SimpleKey) := [none]
  /-- Column of the innermost block collection. -/
  indent : Int := -1
  /-- Columns of the block collections around it. -/
  indents : List Int := []
deriving Inhabited

namespace Lexer

def mark (lx : Lexer) : Mark := lx.cursor.mark

def inFlow (lx : Lexer) : Bool := 1 < lx.keys.length

def push (lx : Lexer) (t : Token) : Lexer := { lx with tokens := lx.tokens.push t }

def insert (lx : Lexer) (position : Nat) (t : Token) : Lexer :=
  { lx with
    tokens := (lx.tokens.extract 0 position).push t ++
      lx.tokens.extract position lx.tokens.size }

def allowKey (lx : Lexer) (allowed : Bool) : Lexer := { lx with keyAllowed := allowed }

def skip (lx : Lexer) (n : Nat := 1) : Lexer := { lx with cursor := lx.cursor.skip n }

/-! ## Possible keys -/

def SimpleKey.isStale (k : SimpleKey) (m : Mark) : Bool :=
  k.mark.line < m.line || k.mark.offset + 1024 < m.offset

/-- Forget a possible key; none may be forgotten that is required. -/
def forget : Option SimpleKey → Option (Option SimpleKey)
  | some k => if k.required then none else some none
  | none => some none

def forgetStale (lx : Lexer) : Option Lexer := do
  let keys ← lx.keys.mapM fun k =>
    if k.any (SimpleKey.isStale · lx.mark) then forget k else some k
  return { lx with keys }

def removeKey (lx : Lexer) : Option Lexer :=
  match lx.keys with
  | [] => some lx
  | k :: rest => (forget k).map fun k => { lx with keys := k :: rest }

def saveKey (lx : Lexer) : Option Lexer := do
  if !lx.keyAllowed then return lx
  let key : SimpleKey :=
    { required := !lx.inFlow && lx.indent = lx.mark.column
      position := lx.tokens.size
      mark := lx.mark }
  let lx ← lx.removeKey
  return { lx with keys := some key :: lx.keys.drop 1 }

/-! ## Indentation -/

/-- Open a block collection at a column further in; `position` is where its token
goes. -/
def openBlock (lx : Lexer) (column position : Nat) (t : Token) : Lexer :=
  if lx.inFlow || (column : Int) ≤ lx.indent then lx
  else { lx.insert position t with indent := column, indents := lx.indent :: lx.indents }

/-- The columns that are left once all further in than `column` are closed, with the
number of collections closed. -/
def closeTo (column indent : Int) : List Int → Int × List Int × Nat
  | [] => (indent, [], 0)
  | outer :: rest =>
    if column < indent then
      let (indent, indents, closed) := closeTo column outer rest
      (indent, indents, closed + 1)
    else (indent, outer :: rest, 0)

/-- Close the block collections that are further in than `column`. -/
def closeBlocks (lx : Lexer) (column : Int) : Lexer :=
  if lx.inFlow then lx
  else
    let (indent, indents, closed) := closeTo column lx.indent lx.indents
    { lx with
      indent, indents
      tokens := lx.tokens ++ Array.replicate closed Token.blockEnd }

/-! ## Between tokens -/

/-- Skip white space and comments.  A tab counts as white space only where no key
can begin; in a block a new line may start a key.  A byte order mark may begin a line,
in which it counts as a character. -/
def skipBlanks (lx : Lexer) : (fuel : Nat) → Lexer
  | 0 => lx
  | fuel + 1 =>
    let tabs := lx.inFlow || !lx.keyAllowed
    let c := lx.cursor
    let c := if c.mark.column = 0 && c.sees byteOrderMark then c.skip else c
    let c := c.skipWhile fun x => x = ' ' || (tabs && x = '\t')
    let c := if c.sees '#' then c.skipLine else c
    if c.peek?.any isBreak then
      skipBlanks { lx with cursor := c.skipBreak, keyAllowed := lx.keyAllowed || !lx.inFlow } fuel
    else { lx with cursor := c }

/-! ## Directives -/

def versionNumber (c : Cursor) : Option (Nat × Cursor) :=
  let (digits, c) := c.takeWhile Char.isDigit
  if digits.isEmpty || 9 < digits.length then none
  else some (digits.foldl (fun n d => n * 10 + (d.toNat - '0'.toNat)) 0, c)

/-- A tag handle: exclamation marks around a word, or just one mark.  The second mark
may be missing unless the handle is being declared. -/
def tagHandle (declared : Bool) (c : Cursor) : Option (List Char × Cursor) :=
  if !c.sees '!' then none
  else
    let (word, c) := c.skip.takeWhile isWord
    if c.sees '!' then some ('!' :: word ++ ['!'], c.skip)
    else if declared && !word.isEmpty then none
    else some ('!' :: word, c)

def isTagChar (verbatim : Bool) (c : Char) : Bool :=
  isWord c || ";/?:@&=+$.!~*'()%".toList.contains c || (verbatim && ",[]".toList.contains c)

/-- The byte written as a percent sign with two hexadecimal digits. -/
def percentByte? : List Char → Option Nat
  | '%' :: a :: b :: _ => do
    let a ← hexDigit? a
    let b ← hexDigit? b
    return a * 16 + b
  | _ => none

def sequenceLength (byte : Nat) : Nat :=
  if byte < 0x80 then 1 else if byte < 0xC0 then 0 else if byte < 0xE0 then 2
  else if byte < 0xF0 then 3 else if byte < 0xF8 then 4 else 0

/-- The bytes of one sequence in percent form.  They have to look like UTF-8, but may
encode what is no character. -/
def percentSequence? (cs : List Char) : Option (List UInt8) := do
  let first ← percentByte? cs
  let width := sequenceLength first
  if width = 0 then none
  let rest ← (List.range (width - 1)).mapM fun i => percentByte? (cs.drop (3 * (i + 1)))
  if rest.any fun b => b < 0x80 || 0xC0 ≤ b then none
  return (first :: rest).map UInt8.ofNat

/-- The bytes of a tag, with those in percent form decoded. -/
def tagBytes (verbatim : Bool) : (fuel : Nat) → Cursor → Option (List UInt8 × Cursor)
  | 0, _ => none
  | fuel + 1, c =>
    match c.peek? with
    | none => some ([], c)
    | some x =>
      if !isTagChar verbatim x then some ([], c)
      else if x = '%' then do
        let bytes ← percentSequence? c.rest
        let (more, c) ← tagBytes verbatim fuel (c.skip (3 * bytes.length))
        return (bytes ++ more, c)
      else do
        let (more, c) ← tagBytes verbatim fuel c.skip
        return (UInt8.ofNat x.toNat :: more, c)

/-- What follows a tag handle.  `head` was read as a handle but is none. -/
def tagSuffix (verbatim : Bool) (head : List Char) (c : Cursor) : Option (Tag × Cursor) := do
  let (more, c) ← tagBytes verbatim (c.rest.length + 1) c
  if head.isEmpty && more.isEmpty then none
  return (Tag.ofText (String.ofList (head.drop 1)) ++ Tag.ofBytes more, c)

/-- A directive, from its percent sign to the end of the line. -/
def scanDirective (c : Cursor) : Option (Token × Cursor) := do
  let (name, c) := c.skip.takeWhile isWord
  if name.isEmpty || !c.endsWordAt 0 then none
  let (token, c) ←
    if name = "YAML".toList then do
      let (major, c) ← versionNumber (c.skipWhile isBlank)
      if !c.sees '.' then none
      let (minor, c) ← versionNumber c.skip
      some (Token.versionDirective major minor, c)
    else if name = "TAG".toList then do
      let (handle, c) ← tagHandle true (c.skipWhile isBlank)
      if !(c.peek?.any isBlank) then none
      let (expansion, c) ← tagSuffix true [] (c.skipWhile isBlank)
      if !c.endsWordAt 0 then none
      some (Token.tagDirective (String.ofList handle) expansion, c)
    else none
  let c := c.skipWhile isBlank
  let c := if c.sees '#' then c.skipLine else c
  if !(c.peek?.all isBreak) then none
  return (token, c.skipBreak)

/-! ## Anchors and tags -/

def scanName (c : Cursor) : Option (String × Cursor) :=
  let (name, c) := c.skip.takeWhile isWord
  let ends := c.peek?.all fun x => isBlankOrBreak x || "?:,]\x7d%@\x60".toList.contains x
  if name.isEmpty || !ends then none else some (String.ofList name, c)

/-- A tag: verbatim between angle brackets, with a handle, or local. -/
def scanTag (inFlow : Bool) (c : Cursor) : Option (Token × Cursor) := do
  let (handle, suffix, c) ←
    if c.skip.sees '<' then do
      let (suffix, c) ← tagSuffix true [] (c.skip 2)
      if !c.sees '>' then none
      some ([], suffix, c.skip)
    else do
      let (handle, c) ← tagHandle false c
      if 1 < handle.length && handle.getLast? = some '!' then do
        let (suffix, c) ← tagSuffix false [] c
        some (handle, suffix, c)
      else do
        let (suffix, c) ← tagSuffix false handle c
        if suffix.isEmpty then some ([], .bare, c) else some (['!'], suffix, c)
  if !(c.endsWordAt 0 || (inFlow && c.sees ',')) then none
  return (.tag (String.ofList handle) suffix, c)

/-! ## Single tokens -/

def fetchBorder (lx : Lexer) (read : Cursor → Option (Token × Cursor)) : Option Lexer := do
  let lx ← (lx.closeBlocks (-1)).removeKey
  let (token, cursor) ← read lx.cursor
  return { lx.push token with cursor, keyAllowed := false }

def fetchFlowStart (lx : Lexer) (t : Token) : Option Lexer := do
  let lx ← lx.saveKey
  return { (lx.skip.push t) with keys := none :: lx.keys, keyAllowed := true }

def fetchFlowEnd (lx : Lexer) (t : Token) : Option Lexer := do
  let lx ← lx.removeKey
  let keys := if lx.inFlow then lx.keys.drop 1 else lx.keys
  return { (lx.skip.push t) with keys, keyAllowed := false }

def fetchFlowItem (lx : Lexer) : Option Lexer := do
  let lx ← lx.removeKey
  return (lx.skip.push .flowItem).allowKey true

def fetchBlockItem (lx : Lexer) : Option Lexer := do
  if !lx.inFlow && !lx.keyAllowed then none
  let lx := lx.openBlock lx.mark.column lx.tokens.size .blockSequenceStart
  let lx ← lx.removeKey
  return (lx.skip.push .blockItem).allowKey true

def fetchKey (lx : Lexer) : Option Lexer := do
  if !lx.inFlow && !lx.keyAllowed then none
  let lx := lx.openBlock lx.mark.column lx.tokens.size .blockMappingStart
  let lx ← lx.removeKey
  return (lx.skip.push .key).allowKey (!lx.inFlow)

/-- Read a colon: the end of a key that was remembered, or of a key with a mark. -/
def fetchValue (lx : Lexer) : Option Lexer :=
  match lx.keys with
  | some key :: rest =>
    let lx := lx.insert key.position .key
    let lx := lx.openBlock key.mark.column key.position .blockMappingStart
    some { (lx.skip.push .value) with keys := none :: rest, keyAllowed := false }
  | _ =>
    if !lx.inFlow && !lx.keyAllowed then none
    else
      let lx := lx.openBlock lx.mark.column lx.tokens.size .blockMappingStart
      some ((lx.skip.push .value).allowKey (!lx.inFlow))

def fetchNode (lx : Lexer) (read : Cursor → Option (Token × Cursor)) : Option Lexer := do
  let lx ← lx.saveKey
  let (token, cursor) ← read lx.cursor
  return { lx.push token with cursor, keyAllowed := false }

def fetchBlockScalar (lx : Lexer) (literal : Bool) : Option Lexer := do
  let lx ← lx.removeKey
  let (text, cursor) ← scanBlock literal lx.indent lx.cursor
  return { lx.push (.scalar text .block) with cursor, keyAllowed := true }

def fetchPlain (lx : Lexer) : Option Lexer := do
  let lx ← lx.saveKey
  let (text, broken, cursor) ← scanPlain lx.inFlow (lx.indent + 1).toNat lx.cursor
  return { lx.push (.scalar text .plain) with cursor, keyAllowed := broken }

/-- Whether a plain scalar can begin with `x`, the first character of `c`. -/
def startsPlain (inFlow : Bool) (x : Char) (c : Cursor) : Bool :=
  if x = '-' then !((c.rest[1]?).any isBlank)
  else if x = '?' || x = ':' then !inFlow && !c.endsWordAt 1
  else !(",[]\x7b\x7d#&*!|>'\"%@\x60".toList.contains x) && !isBlankOrBreak x

/-- Read the token that begins with the character `x`, which comes next. -/
def fetchAt (lx : Lexer) (x : Char) : Option Lexer :=
  let c := lx.cursor
  if c.mark.column = 0 && x = '%' then lx.fetchBorder scanDirective
  else if c.atBorder '-' then lx.fetchBorder fun c => some (.documentStart, c.skip 3)
  else if c.atBorder '.' then lx.fetchBorder fun c => some (.documentEnd, c.skip 3)
  else if x = '[' then lx.fetchFlowStart .flowSequenceStart
  else if x = '\x7b' then lx.fetchFlowStart .flowMappingStart
  else if x = ']' then lx.fetchFlowEnd .flowSequenceEnd
  else if x = '\x7d' then lx.fetchFlowEnd .flowMappingEnd
  else if x = ',' then lx.fetchFlowItem
  else if x = '-' && c.endsWordAt 1 then lx.fetchBlockItem
  else if x = '?' && (lx.inFlow || c.endsWordAt 1) then lx.fetchKey
  else if x = ':' && (lx.inFlow || c.endsWordAt 1) then lx.fetchValue
  else if x = '*' then lx.fetchNode fun c => (scanName c).map fun (n, c) => (.reference n, c)
  else if x = '&' then lx.fetchNode fun c => (scanName c).map fun (n, c) => (.anchor n, c)
  else if x = '!' then lx.fetchNode (scanTag lx.inFlow)
  else if (x = '|' || x = '>') && !lx.inFlow then lx.fetchBlockScalar (x = '|')
  else if x = '\'' || x = '"' then
    lx.fetchNode fun c => (scanQuoted (x = '\'') c).map fun (t, c) => (.scalar t .quoted, c)
  else if startsPlain lx.inFlow x c then lx.fetchPlain
  else none

/-- All tokens from here on.  Each one takes a character, so there are at most as many
as characters. -/
def run (lx : Lexer) : (fuel : Nat) → Option (Array Token)
  | 0 => none
  | fuel + 1 => do
    let lx := lx.skipBlanks (lx.cursor.rest.length + 1)
    let lx ← lx.forgetStale
    let lx := lx.closeBlocks lx.mark.column
    match lx.cursor.peek? with
    | none =>
      let lx ← (lx.closeBlocks (-1)).removeKey
      return lx.tokens
    | some x => run (← lx.fetchAt x) fuel

end Lexer

/-- The tokens of a text, unless it is malformed. -/
def Token.scan (text : String) : Option (List Token) :=
  let cs := text.toList
  if !cs.all isAllowed then none
  else (Lexer.run { cursor := { rest := cs } } (cs.length + 1)).map Array.toList

end StepWeave.Markup

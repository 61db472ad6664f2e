import StepWeave.Markup.Node

/-!
# From tokens to nodes

A node is read by looking one token ahead.  Where the tokens leave a node out,
an empty scalar stands in its place.
-/

namespace StepWeave.Markup

/-- The tokens still to be read, and the anchors seen so far. -/
structure Reader where
  tokens : List Token
  /-- Numbers of the anchors by name. -/
  anchors : List (String × Nat) := []

/-- Reading fails at the first token that does not fit. -/
abbrev Read := StateT Reader Option

namespace Read

def peek : Read (Option Token) := return (← get).tokens.head?

def skip : Read Unit := modify fun r => { r with tokens := r.tokens.drop 1 }

/-- Skip the token if it comes next; answers whether it did. -/
def accept (t : Token) : Read Bool := do
  if (← peek) = some t then
    skip
    return true
  else return false

def expect (t : Token) : Read Unit := do
  if !(← accept t) then failure

/-- Number an anchor.  A name that is used again takes a number of its own, but
does not count as another name. -/
def anchor (name : String) : Read Nat :=
  modifyGet fun r =>
    let number := r.anchors.length
    (number, { r with anchors := (name, number) :: r.anchors.filter (·.1 ≠ name) })

def reference (name : String) : Read Node := do
  match (← get).anchors.lookup name with
  | some number => return .reference number
  | none => failure

/-! ## Properties -/

/-- Tag handles with what they stand for. -/
abbrev Handles := List (String × Tag)

def tagName (handles : Handles) (handle : String) (suffix : Tag) : Read Tag := do
  if handle.isEmpty then return suffix
  match handles.lookup handle with
  | some expansion => return expansion ++ suffix
  | none => failure

def anchor? : Read (Option Nat) := do
  match ← peek with
  | some (.anchor name) =>
    skip
    return some (← anchor name)
  | _ => return none

def tag? (handles : Handles) : Read (Option Tag) := do
  match ← peek with
  | some (.tag handle suffix) =>
    skip
    return some (← tagName handles handle suffix)
  | _ => return none

/-- An anchor and a tag, each at most once, in either order. -/
def properties (handles : Handles) : Read Properties := do
  match ← anchor? with
  | some number => return ⟨some number, ← tag? handles⟩
  | none =>
    let tag ← tag? handles
    if tag.isNone then return {}
    return ⟨← anchor?, tag⟩

/-! ## Nodes -/

/-- Where a node stands. -/
inductive Place where
  /-- Inside a flow collection. -/
  | flow
  | block
  /-- In a block mapping, where a sequence needs no further indentation. -/
  | entry
deriving DecidableEq

/-- Whether the tokens leave a node out when one of `ends` comes next. -/
def isLeftOut (ends : List Token) : Read Bool := do
  match ← peek with
  | some t => return ends.contains t
  | none => return false

mutual

def node (handles : Handles) (place : Place) : (fuel : Nat) → Read Node
  | 0 => failure
  | fuel + 1 => do
    match ← peek with
    | some (.reference name) =>
      skip
      reference name
    | _ =>
      let p ← properties handles
      match ← peek with
      | some (.scalar text style) =>
        skip
        return .scalar p style text
      | some .flowSequenceStart =>
        skip
        return .sequence p (← flowItems handles true fuel)
      | some .flowMappingStart =>
        skip
        return .mapping p (← flowEntries handles true fuel)
      | some .blockItem =>
        if place = .entry then return .sequence p (← flushItems handles fuel)
        else bare p
      | some .blockSequenceStart =>
        if place = .flow then bare p
        else
          skip
          return .sequence p (← blockItems handles fuel)
      | some .blockMappingStart =>
        if place = .flow then bare p
        else
          skip
          return .mapping p (← blockEntries handles fuel)
      | _ => bare p
where
  /-- Properties with nothing after them. -/
  bare (p : Properties) : Read Node :=
    if p = {} then failure else return .empty p

/-- A node, or an empty one if one of `ends` comes next. -/
def nodeUnless (handles : Handles) (place : Place) (ends : List Token) :
    (fuel : Nat) → Read Node
  | 0 => failure
  | fuel + 1 => do
    if ← isLeftOut ends then return .empty else node handles place fuel

def blockItems (handles : Handles) : (fuel : Nat) → Read (List Node)
  | 0 => failure
  | fuel + 1 => do
    if ← accept .blockItem then
      let item ← nodeUnless handles .block [.blockItem, .blockEnd] fuel
      return item :: (← blockItems handles fuel)
    else if ← accept .blockEnd then return []
    else failure

def flushItems (handles : Handles) : (fuel : Nat) → Read (List Node)
  | 0 => failure
  | fuel + 1 => do
    if ← accept .blockItem then
      let item ← nodeUnless handles .block [.blockItem, .key, .value, .blockEnd] fuel
      return item :: (← flushItems handles fuel)
    else return []

def blockEntries (handles : Handles) : (fuel : Nat) → Read (List (Node × Node))
  | 0 => failure
  | fuel + 1 => do
    if ← accept .key then
      let key ← nodeUnless handles .entry [.key, .value, .blockEnd] fuel
      let value ←
        if ← accept .value then nodeUnless handles .entry [.key, .value, .blockEnd] fuel
        else pure .empty
      return (key, value) :: (← blockEntries handles fuel)
    else if ← accept .blockEnd then return []
    else failure

def flowItems (handles : Handles) (first : Bool) : (fuel : Nat) → Read (List Node)
  | 0 => failure
  | fuel + 1 => do
    if ← accept .flowSequenceEnd then return []
    if !first then expect .flowItem
    if ← accept .flowSequenceEnd then return []
    let item ←
      if ← accept .key then do
        let entry ← flowPair handles fuel
        pure (.mapping {} [entry])
      else node handles .flow fuel
    return item :: (← flowItems handles false fuel)

/-- The entry of a mapping that is written as an item of a flow sequence.  A token that
stands where the key is left out is lost. -/
def flowPair (handles : Handles) : (fuel : Nat) → Read (Node × Node)
  | 0 => failure
  | fuel + 1 => do
    let key ←
      if ← isLeftOut [.value, .flowItem, .flowSequenceEnd] then do
        skip
        pure .empty
      else node handles .flow fuel
    let value ←
      if ← accept .value then nodeUnless handles .flow [.flowItem, .flowSequenceEnd] fuel
      else pure .empty
    return (key, value)

def flowEntries (handles : Handles) (first : Bool) :
    (fuel : Nat) → Read (List (Node × Node))
  | 0 => failure
  | fuel + 1 => do
    if ← accept .flowMappingEnd then return []
    if !first then expect .flowItem
    if ← accept .flowMappingEnd then return []
    let entry ←
      if ← accept .key then do
        let key ← nodeUnless handles .flow [.value, .flowItem, .flowMappingEnd] fuel
        let value ←
          if ← accept .value then nodeUnless handles .flow [.flowItem, .flowMappingEnd] fuel
          else pure .empty
        pure (key, value)
      else do
        let key ← node handles .flow fuel
        pure (key, .empty)
    return entry :: (← flowEntries handles false fuel)

end

/-! ## Documents -/

/-- The directives before a document; each kind of version and each handle may be
given once. -/
def directives (version : Bool) (handles : Handles) : (fuel : Nat) → Read Handles
  | 0 => failure
  | fuel + 1 => do
    match ← peek with
    | some (.versionDirective major minor) =>
      if version || major ≠ 1 || (minor ≠ 1 && minor ≠ 2) then failure
      skip
      directives true handles fuel
    | some (.tagDirective handle expansion) =>
      if (handles.lookup handle).isSome then failure
      skip
      directives version (handles ++ [(handle, expansion)]) fuel
    | _ => return handles

def standardHandles : Handles := [("!", .bare), ("!!", .core "")]

def startsOver : Option Token → Bool
  | none | some (.versionDirective ..) | some (.tagDirective ..) => true
  | some .documentStart | some .documentEnd => true
  | _ => false

def document (fuel : Nat) : Read Node := do
  let root ←
    match ← peek with
    | none => pure .empty
    | some (.versionDirective ..) | some (.tagDirective ..) | some .documentStart =>
      let handles ← directives false [] fuel
      expect .documentStart
      if startsOver (← peek) then pure .empty
      else node (handles ++ standardHandles) .block fuel
    | some _ => node standardHandles .block fuel
  modify fun r => { r with tokens := r.tokens.dropWhile (· = .documentEnd) }
  if (← peek).isSome then failure
  return root

end Read

/-- The node that the tokens of a text describe.  No token leads to more than a few
nested calls, which bounds the fuel. -/
def Node.ofTokens? (tokens : List Token) : Option Node :=
  ((Read.document (4 * tokens.length + 4)).run { tokens }).map Prod.fst

end StepWeave.Markup

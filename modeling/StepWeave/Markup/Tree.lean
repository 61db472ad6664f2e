import StepWeave.Markup.Node.Grammar
import StepWeave.Markup.Token.Lexer

/-!
# Trees

A tree is a node with its references written out.  Only the parts that a reader asks
for are expanded, so references elsewhere do no harm; the nesting of collections
and the number of references are limited.
-/

namespace StepWeave.Markup

inductive Tree where
  | scalar (tag : Option Tag) (plain : Bool) (text : String)
  | sequence (tag : Option Tag) (items : List Tree)
  | mapping (tag : Option Tag) (entries : List (Tree × Tree))
  /-- A part that was not asked for. -/
  | skipped
deriving Repr, Inhabited

/-- What a reader asks for. -/
inductive Demand where
  | whole
  /-- A sequence. -/
  | items (item : Demand)
  /-- A mapping, of which only the known fields are of interest. -/
  | fields (known : List (String × Demand))

namespace Tree

/-! ## Making trees -/

def ofText (s : String) : Tree := .scalar none false s

def null : Tree := .scalar none true "null"

def ofOption (s : Option String) : Tree := s.elim null ofText

def ofNat (n : Nat) : Tree := .scalar none true (toString n)

def ofList (items : List Tree) : Tree := .sequence none items

def ofFields (entries : List (String × Tree)) : Tree :=
  .mapping none (entries.map fun e => (ofText e.1, e.2))

/-! ## Reading trees -/

/-- The text of a scalar, however it is written. -/
def text? : Tree → Option String
  | scalar _ _ text => some text
  | _ => none

def isNullWord (s : String) : Bool := s ∈ ["null", "Null", "NULL", "~"]

/-- The text of a scalar, or nothing if it stands for an absent value. -/
def optionText? : Tree → Option (Option String)
  | scalar none true text => some (if text.isEmpty || isNullWord text then none else some text)
  | scalar (some tag) true text =>
    if tag = .core "null" then (if isNullWord text then some none else none) else some (some text)
  | t => t.text?.map some

/-- Whether the tree is a value that was left out, which counts as an empty
collection. -/
def isVoid : Tree → Bool
  | scalar _ true "" => true
  | _ => false

def items? : Tree → Option (List Tree)
  | sequence _ items => some items
  | t => if t.isVoid then some [] else none

/-- The entries of a mapping, the keys of which have to be scalars. -/
def entries? : Tree → Option (List (String × Tree))
  | mapping _ entries => entries.mapM fun e => e.1.text?.map (·, e.2)
  | t => if t.isVoid then some [] else none

/-! ## Comparing trees -/

mutual

def decEq : (t u : Tree) → Decidable (t = u)
  | scalar tag plain text, scalar tag' plain' text' =>
    decidable_of_iff (tag = tag' ∧ plain = plain' ∧ text = text') (by simp)
  | sequence tag items, sequence tag' items' =>
    have := decEqItems items items'
    decidable_of_iff (tag = tag' ∧ items = items') (by simp)
  | mapping tag entries, mapping tag' entries' =>
    have := decEqEntries entries entries'
    decidable_of_iff (tag = tag' ∧ entries = entries') (by simp)
  | skipped, skipped => isTrue rfl
  | scalar .., sequence .. | scalar .., mapping .. | scalar .., skipped
  | sequence .., scalar .. | sequence .., mapping .. | sequence .., skipped
  | mapping .., scalar .. | mapping .., sequence .. | mapping .., skipped
  | skipped, scalar .. | skipped, sequence .. | skipped, mapping .. => isFalse (by simp)

def decEqItems : (l m : List Tree) → Decidable (l = m)
  | [], [] => isTrue rfl
  | [], _ :: _ | _ :: _, [] => isFalse (by simp)
  | t :: l, u :: m =>
    have := decEq t u
    have := decEqItems l m
    decidable_of_iff (t = u ∧ l = m) (by simp)

def decEqEntries : (l m : List (Tree × Tree)) → Decidable (l = m)
  | [], [] => isTrue rfl
  | [], _ :: _ | _ :: _, [] => isFalse (by simp)
  | (key, value) :: l, (key', value') :: m =>
    have := decEq key key'
    have := decEq value value'
    have := decEqEntries l m
    decidable_of_iff (key = key' ∧ value = value' ∧ l = m) (by simp [and_assoc])

end

instance : DecidableEq Tree := decEq

end Tree

/-! ## Expanding nodes -/

def maxDepth : Nat := 128

namespace Node

/-- An expansion counts the references that it follows. -/
abbrev Expand := StateT Nat Option

/-- The node that a reference stands for, as long as the limit is not reached. -/
def follow (root : Node) (limit : Nat) : Node → Expand Node
  | .reference anchor => do
    let jumps ← get
    if limit ≤ jumps then failure
    set (jumps + 1)
    match root.anchored? anchor with
    | some node => return node
    | none => failure
  | node => return node

def demandAt? (known : List (String × Demand)) (key : Tree) : Option Demand :=
  key.text?.bind fun key => List.lookup key known

def expand (root : Node) (limit : Nat) : (depth : Nat) → Demand → Node → Expand Tree
  | depth, demand, node => do
    match ← follow root limit node with
    | .reference _ => failure
    | .scalar p style text => return .scalar p.tag (style = .plain) text
    | .sequence p items =>
      match depth with
      | 0 => failure
      | depth + 1 =>
        match demand with
        | .whole => return .sequence p.tag (← items.mapM (expand root limit depth .whole))
        | .items item => return .sequence p.tag (← items.mapM (expand root limit depth item))
        | .fields _ => return .skipped
    | .mapping p entries =>
      match depth with
      | 0 => failure
      | depth + 1 =>
        match demand with
        | .whole =>
          let entries ← entries.mapM fun (key, value) =>
            return (← expand root limit depth .whole key, ← expand root limit depth .whole value)
          return .mapping p.tag entries
        | .fields known =>
          let entries ← entries.mapM fun (key, value) => do
            let key ← expand root limit depth .whole key
            match demandAt? known key with
            | some demand => return (key, ← expand root limit depth demand value)
            | none => return (key, .skipped)
          return .mapping p.tag entries
        | .items _ => return .skipped

end Node

/-- The demanded part of a text, unless the text is malformed. -/
def Tree.read (demand : Demand) (text : String) : Option Tree := do
  let tokens ← Token.scan text
  let root ← Node.ofTokens? tokens
  let (tree, _) ← (root.expand (100 * root.extent) maxDepth demand root).run 0
  return tree

end StepWeave.Markup

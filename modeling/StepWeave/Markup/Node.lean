import StepWeave.Markup.Token

/-!
# Nodes

A node is a scalar, a sequence or a mapping, or a reference that stands for a node
elsewhere in the document.  References name anchors by number.
-/

namespace StepWeave.Markup

/-- What may stand before a node: the number of its anchor, and its tag. -/
structure Properties where
  anchor : Option Nat := none
  tag : Option Tag := none
deriving DecidableEq, Repr, Inhabited

inductive Node where
  | reference (anchor : Nat)
  | scalar (properties : Properties) (style : Style) (text : String)
  | sequence (properties : Properties) (items : List Node)
  | mapping (properties : Properties) (entries : List (Node × Node))
deriving Repr, Inhabited

namespace Node

def empty (properties : Properties := {}) : Node := .scalar properties .plain ""

def properties : Node → Properties
  | reference _ => {}
  | scalar p _ _ | sequence p _ | mapping p _ => p

mutual

/-- All nodes from this one on, in the order in which they begin. -/
def parts : Node → List Node
  | reference anchor => [.reference anchor]
  | scalar p style text => [.scalar p style text]
  | sequence p items => .sequence p items :: partsOfItems items
  | mapping p entries => .mapping p entries :: partsOfEntries entries

def partsOfItems : List Node → List Node
  | [] => []
  | item :: rest => parts item ++ partsOfItems rest

def partsOfEntries : List (Node × Node) → List Node
  | [] => []
  | (key, value) :: rest => parts key ++ parts value ++ partsOfEntries rest

end

/-- The node with an anchor: the last one that has its number. -/
def anchored? (root : Node) (anchor : Nat) : Option Node :=
  root.parts.reverse.find? (·.properties.anchor = some anchor)

/-- How long the document is, counting a collection at both of its ends. -/
def extent (root : Node) : Nat :=
  root.parts.foldl (fun n part =>
    match part with
    | reference _ | scalar .. => n + 1
    | sequence .. | mapping .. => n + 2) 0

end Node

end StepWeave.Markup

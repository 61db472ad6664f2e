/-!
# Tags

A tag names the type of a node.  It is written in ASCII, but percent signs may stand
for any bytes in it, so a tag is not always a text.
-/

namespace StepWeave.Markup

/-- The bytes of a tag, none of which is zero. -/
structure Tag where
  bytes : List UInt8
deriving DecidableEq, Repr, Inhabited

namespace Tag

/-- The tag that begins with the bytes; a zero byte cuts it off. -/
def ofBytes (bytes : List UInt8) : Tag := ⟨bytes.takeWhile (· ≠ 0)⟩

def ofText (s : String) : Tag := ofBytes (s.toList.flatMap String.utf8EncodeChar)

def core (name : String) : Tag := ofText ("tag:yaml.org,2002:" ++ name)

def bare : Tag := ofText "!"

def append (t u : Tag) : Tag := ⟨t.bytes ++ u.bytes⟩

instance : Append Tag := ⟨append⟩

def isEmpty (t : Tag) : Bool := t.bytes.isEmpty

/-- Whether the tag begins with the mark of the types that belong to one document. -/
def isLocal (t : Tag) : Bool := t.bytes.head? = some 0x21

/-- The name of a local type: what follows the mark, or the mark if nothing does.  There
is none if that is no text. -/
def localName? (t : Tag) : Option String :=
  match t.bytes with
  | 0x21 :: [] => some "!"
  | 0x21 :: name => String.fromUTF8? ⟨name.toArray⟩
  | _ => none

end Tag

end StepWeave.Markup

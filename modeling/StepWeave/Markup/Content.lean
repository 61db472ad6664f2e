import StepWeave.Markup.Number
import StepWeave.Markup.Tree

/-!
# Typed content

Where the kind of a value decides what it may contain, its plain scalars are taken
for what they look like: absent values, truth values, numbers or text.  A tag of
the core types says which of them it is.
-/

namespace StepWeave.Markup

inductive Content where
  | null
  | bool (value : Bool)
  /-- A whole number without a minus sign. -/
  | count (value : Nat)
  /-- A whole number with a minus sign, which may be zero. -/
  | minus (value : Nat)
  /-- A number that is not whole. -/
  | real
  | text (value : String)
  | sequence (items : List Content)
  | mapping (entries : List (Content × Content))
deriving Repr, Inhabited

namespace Content

def bool? (s : String) : Option Bool :=
  if s ∈ ["true", "True", "TRUE"] then some true
  else if s ∈ ["false", "False", "FALSE"] then some false
  else none

/-- A whole number of at most 64 bits; there is no content of up to 128 bits, and the
inner option is absent for what is no whole number up to that size. -/
def ofInt? (s : String) : Option (Option Content) :=
  match Number.Whole.ofChars? s.toList with
  | none => some none
  | some n =>
    if n.fits 64 then some (some (if n.negative then .minus n.magnitude else .count n.magnitude))
    else if n.fits 128 then none
    else some none

def ofPlain? (s : String) : Option Content :=
  if s.isEmpty || Tree.isNullWord s then some .null
  else
    match bool? s with
    | some b => some (.bool b)
    | none =>
      match ofInt? s with
      | none => none
      | some (some content) => some content
      | some none =>
        let digits := s.toList.dropWhile fun c => c = '+' || c = '-'
        if !Number.isPadded digits && Number.isReal s then some .real else some (.text s)

/-- Whether a tag names a local type, none of which is known. -/
def namesLocal (tag : Tag) : Bool := tag.localName?.isSome

def ofScalar? (tag : Option Tag) (plain : Bool) (s : String) : Option Content :=
  match tag with
  | none => if plain then ofPlain? s else some (.text s)
  | some tag =>
    if tag = .core "bool" then (bool? s).map .bool
    else if tag = .core "int" then (ofInt? s).join
    else if tag = .core "float" then (if Number.isReal s then some .real else none)
    else if tag = .core "null" then (if Tree.isNullWord s then some .null else none)
    else if namesLocal tag then none
    else if tag.isLocal && plain then ofPlain? s
    else some (.text s)

mutual

/-- The content of a tree, if all of it has a known type. -/
def ofTree? : Tree → Option Content
  | .scalar tag plain s => ofScalar? tag plain s
  | .sequence tag items =>
    if tag.any namesLocal then none else (ofItems? items).map .sequence
  | .mapping tag entries =>
    if tag.any namesLocal then none else (ofEntries? entries).map .mapping
  | .skipped => none

def ofItems? : List Tree → Option (List Content)
  | [] => some []
  | item :: rest =>
    match ofTree? item, ofItems? rest with
    | some item, some rest => some (item :: rest)
    | _, _ => none

def ofEntries? : List (Tree × Tree) → Option (List (Content × Content))
  | [] => some []
  | (key, value) :: rest =>
    match ofTree? key, ofTree? value, ofEntries? rest with
    | some key, some value, some rest => some ((key, value) :: rest)
    | _, _, _ => none

end

/-! ## Reading content -/

def text? : Content → Option String
  | text s => some s
  | _ => none

def optionText? : Content → Option (Option String)
  | null => some none
  | text s => some (some s)
  | _ => none

def uint64? : Content → Option UInt64
  | count n => if n < UInt64.size then some (.ofNat n) else none
  | minus 0 => some 0
  | _ => none

/-- One of several named options, given by its name or its position. -/
def choice? {α : Type} (options : List (String × α)) : Content → Option α
  | text name => options.lookup name
  | count n => (options[n]?).map Prod.snd
  | _ => none

/-- One of several named options, given by its name, or as the only key of a mapping to
nothing. -/
def setting? {α : Type} (options : List (String × α)) : Content → Option α
  | text name => options.lookup name
  | mapping [(key, null)] => choice? options key
  | mapping [(key, mapping [])] => choice? options key
  | _ => none

end Content

end StepWeave.Markup

/-!
# Hook names

An extension is attached at a hook, which is a name.  A hook that is the id of a
step stands for the place after that step.  Otherwise it is read as a keyword
(`after`, `before` or `replace`, in any case) followed by the id of a step, and
then as an id followed by a keyword; a separator between the two may be left
out, and ids are compared ignoring ASCII case.
-/

namespace StepWeave

/-- Where an extension stands relative to the step it is attached to. -/
inductive Placement where
  | before
  | replace
  | after
deriving DecidableEq, Repr, Inhabited

def Placement.keyword : Placement → List Char
  | before => "before".toList
  | replace => "replace".toList
  | after => "after".toList

/-- A place in a list of base steps. -/
structure Site where
  index : Nat
  placement : Placement
deriving DecidableEq, Repr, Inhabited

namespace Hook

def isSeparator (c : Char) : Bool := c = '.' || c = ':' || c = '_' || c = '-'

def sameIgnoringCase (s t : List Char) : Bool := s.map Char.toLower == t.map Char.toLower

/-- What follows `word` in `s`, if `s` starts with it in any case. -/
def dropWord? : (word s : List Char) → Option (List Char)
  | [], s => some s
  | _ :: _, [] => none
  | w :: word, c :: s => if c.toLower = w then dropWord? word s else none

/-- The id that stands beside a keyword.  A separator next to the keyword is left
off unless nothing would remain.  There is none if the text is empty or goes
over a line break. -/
def target? (rest : List Char) : Option (List Char) :=
  if rest.isEmpty || rest.contains '\n' then none
  else
    match rest with
    | c :: d :: more => if isSeparator c then some (d :: more) else some rest
    | _ => some rest

/-- A hook name taken apart. -/
structure Reading where
  placement : Placement
  target : List Char
deriving DecidableEq, Repr

def keywordFirst? (hook : List Char) : Option Reading :=
  [Placement.after, .before, .replace].findSome? fun placement =>
    ((dropWord? placement.keyword hook).bind target?).map (Reading.mk placement)

def keywordLast? (hook : List Char) : Option Reading :=
  [Placement.after, .before, .replace].findSome? fun placement =>
    ((dropWord? placement.keyword.reverse hook.reverse).bind target?).map fun target =>
      ⟨placement, target.reverse⟩

def Reading.site? (ids : List String) (r : Reading) : Option Site :=
  (ids.findIdx? fun id => sameIgnoringCase id.toList r.target).map (Site.mk · r.placement)

/-- The place that a hook names among the steps with the given ids. -/
def locate (hook : String) (ids : List String) : Option Site :=
  match ids.findIdx? (· = hook) with
  | some index => some ⟨index, .after⟩
  | none =>
    ((keywordFirst? hook.toList).bind (Reading.site? ids)).or
      ((keywordLast? hook.toList).bind (Reading.site? ids))

end Hook

end StepWeave

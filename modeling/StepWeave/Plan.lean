import StepWeave.Weave

/-!
# Plans

A plan is the woven sequence cut into segments: single steps, and ranges of
steps that run under an interceptor.  The ranges of a plan do not overlap.
-/

namespace StepWeave

variable [Types]

/-- A range of positions, from `start` up to but without `stop`. -/
structure Span where
  start : Nat
  stop : Nat
deriving DecidableEq, Repr, Inhabited

def Span.slice {α : Type} (s : Span) (l : List α) : List α :=
  (l.drop s.start).take (s.stop - s.start)

/-- The positions that an interceptor wraps in a sequence with the given ids: from
the first step with its start id to the first step with its end id that does not
come before that. -/
def Interceptor.span {R : Type} (i : Interceptor R) (ids : List String) : Except Defect Span :=
  let start : Except Defect Nat :=
    match i.start with
    | none => .ok 0
    | some id =>
      match ids.findIdx? (· = id) with
      | some position => .ok position
      | none => .error (.unknownStart i.id id)
  match start with
  | .error defect => .error defect
  | .ok start =>
    match i.stop with
    | none => .ok ⟨start, ids.length⟩
    | some id =>
      match (ids.drop start).findIdx? (· = id) with
      | some offset => .ok ⟨start, start + offset + 1⟩
      | none => .error (.misplacedEnd i.id id)

/-- A part of a plan. -/
inductive Segment (R : Type) where
  | plain (step : Step R)
  | intercepted (interceptor : Interceptor R) (steps : List (Step R))

def Segment.steps {R : Type} : Segment R → List (Step R)
  | plain step => [step]
  | intercepted _ steps => steps

/-- The steps of a variant in run order, with the interceptors around them. -/
structure Plan (R : Type) where
  segments : List (Segment R)
  /-- How many steps there are to run. -/
  total : Nat := (segments.flatMap Segment.steps).length

namespace Plan

variable {R : Type}

def steps (p : Plan R) : List (Step R) := p.segments.flatMap Segment.steps

def stepIds (p : Plan R) : List String := p.steps.map (·.id)

/-- An interceptor with the span it wraps. -/
abbrev Placed (R : Type) : Type := Span × Interceptor R

/-- The spans of all interceptors, up to the first that has none. -/
def placeAll (ids : List String) : List (Interceptor R) → Except Defect (List (Placed R))
  | [] => .ok []
  | i :: rest =>
    match i.span ids with
    | .error defect => .error defect
    | .ok span =>
      match placeAll ids rest with
      | .error defect => .error defect
      | .ok placed => .ok ((span, i) :: placed)

/-- Order by the start of the span; interceptors that start together keep their order. -/
def sortByStart (placed : List (Placed R)) : List (Placed R) :=
  placed.mergeSort fun a b => decide (a.1.start ≤ b.1.start)

def overlap? : List (Placed R) → Option Defect
  | a :: b :: rest =>
    if b.1.start < a.1.stop then some (.overlap a.2.id b.2.id) else overlap? (b :: rest)
  | _ => none

/-- Cut the sequence from `position` on along spans that follow each other. -/
def cut (woven : List (Step R)) (position : Nat) : List (Placed R) → List (Segment R)
  | [] => (woven.drop position).map .plain
  | (span, i) :: rest =>
    ((Span.mk position span.start).slice woven).map .plain ++
      .intercepted i (span.slice woven) :: cut woven span.stop rest

/-- The plan of a variant without a delegate.  It exists if the extensions can be
woven in and the interceptors find their ranges, which have to be disjoint. -/
def build (v : Variant R) : Except Failure (Plan R) :=
  match v.weave with
  | .error failure => .error failure
  | .ok woven =>
    match placeAll (woven.map (·.id)) v.interceptors with
    | .error defect => .error (v.invalid defect)
    | .ok placed =>
      let placed := sortByStart placed
      match overlap? placed with
      | some defect => .error (v.invalid defect)
      | none => .ok ⟨cut woven 0 placed, woven.length⟩

end Plan

end StepWeave

import StepWeave.Hook
import StepWeave.Variant

/-!
# Weaving extensions into the base steps

Every base step gets a slot, which collects the extensions located before it, in
its stead and after it.  Extensions are attached in ascending order of their
hook names, so each slot keeps that order, and the woven sequence is what the
slots hold.
-/

namespace StepWeave

variable [Types]

/-- A base step with the extensions attached to it. -/
structure Slot (R : Type) where
  base : Step R
  before : List (Step R) := []
  /-- The extension that replaces the base step, under its hook. -/
  replacement : Option (String × Step R) := none
  after : List (Step R) := []

namespace Slot

variable {R : Type}

def center (s : Slot R) : Step R :=
  match s.replacement with
  | some (_, step) => step
  | none => s.base

def steps (s : Slot R) : List (Step R) := s.before ++ s.center :: s.after

/-- Attach an extension.  A base step is replaced at most once. -/
def attach (s : Slot R) (hook : String) (step : Step R) : Placement → Except Defect (Slot R)
  | .before => .ok { s with before := s.before ++ [step] }
  | .after => .ok { s with after := s.after ++ [step] }
  | .replace =>
    match s.replacement with
    | some (earlier, _) => .error (.contestedStep earlier hook s.base.id)
    | none => .ok { s with replacement := some (hook, step) }

end Slot

namespace Variant

variable {R : Type}

/-- Attach the extension `step` at `hook` to its slot. -/
def attach (ids : List String) (slots : List (Slot R)) (hook : String) (step : Step R) :
    Except Defect (List (Slot R)) :=
  match Hook.locate hook ids with
  | none => .error (.unmatchedHook hook)
  | some site =>
    match slots[site.index]? with
    | none => .error (.unmatchedHook hook)
    | some slot =>
      match slot.attach hook step site.placement with
      | .error defect => .error defect
      | .ok slot => .ok (slots.set site.index slot)

/-- Attach extensions one after the other, up to the first that does not fit. -/
def attachAll (ids : List String) :
    List (String × Step R) → List (Slot R) → Except Defect (List (Slot R))
  | [], slots => .ok slots
  | (hook, step) :: rest, slots =>
    match attach ids slots hook step with
    | .error defect => .error defect
    | .ok slots => attachAll ids rest slots

/-- The base steps with the extensions attached at their hooks. -/
def weaveSlots (v : Variant R) : Except Failure (List (Step R)) :=
  match attachAll v.stepIds v.extensions.entries (v.steps.map fun base => { base }) with
  | .error defect => .error (v.invalid defect)
  | .ok slots => .ok (slots.flatMap Slot.steps)

/-- The base steps with the extensions woven in, which are the base steps themselves if
there are no extensions.  A delegate is not looked at, so a variant is to be flattened
first. -/
def weave (v : Variant R) : Except Failure (List (Step R)) :=
  if v.extensions.isEmpty then .ok v.steps else v.weaveSlots

end Variant

end StepWeave

/-!
# Colours and signs

A `Theme` says whether text for people is coloured and whether signs are shown as
pictures.  A coloured text stands between the control sequences that switch the
colour on and off.
-/

namespace StepWeave.Text

inductive Tint where
  | bold
  | dim
  | red
  | green
  | yellow
  | blue
  | cyan
deriving DecidableEq, Repr, Inhabited

def Tint.code : Tint → Nat
  | bold => 1
  | dim => 2
  | red => 31
  | green => 32
  | yellow => 33
  | blue => 34
  | cyan => 36

inductive Sign where
  | done
  | failed
  | note
  | warning
  | start
  | stop
deriving DecidableEq, Repr, Inhabited

def Sign.picture : Sign → String
  | done => "✅ "
  | failed => "❌ "
  | note => "ℹ️  "
  | warning => "⚠️  "
  | start => "▶️  "
  | stop => "⏹️  "

def Sign.plain : Sign → String
  | done => "✓ "
  | failed => "✗ "
  | note => "i "
  | warning => "!"
  | start => "> "
  | stop => "# "

/-- How text for people looks. -/
structure Theme where
  colors : Bool := false
  pictures : Bool := true
deriving DecidableEq, Repr, Inhabited

namespace Theme

def paint (t : Theme) (tint : Tint) (s : String) : String :=
  if t.colors then s!"\x1b[{tint.code}m" ++ s ++ "\x1b[0m" else s

def sign (t : Theme) (s : Sign) : String := if t.pictures then s.picture else s.plain

end Theme

end StepWeave.Text

import StepWeave.Text.Unprintable

/-!
# Quoted text

Diagnostics show a text between double quotes.  Quotes and backslashes get a
backslash, the usual control characters their letter, and every other character
that cannot be seen stands as its number in braces.
-/

namespace StepWeave.Text

def hexNumber (c : Char) : String := String.ofList (Nat.toDigits 16 c.toNat)

def isShownByNumber (c : Char) : Bool :=
  if c.toNat < 0x80 then c.toNat < 0x20 || c.toNat = 0x7F
  else Unprintable.contains c.toNat

def quoteChar (c : Char) : String :=
  match c with
  | '"' => "\\\""
  | '\\' => "\\\\"
  | '\n' => "\\n"
  | '\r' => "\\r"
  | '\t' => "\\t"
  | '\x00' => "\\0"
  | c => if isShownByNumber c then "\\u\x7b" ++ hexNumber c ++ "\x7d" else c.toString

def quote (s : String) : String :=
  "\"" ++ String.join (s.toList.map quoteChar) ++ "\""

def quoteOption : Option String → String
  | none => "None"
  | some s => "Some(" ++ quote s ++ ")"

def bracket (items : List String) : String := "[" ++ ", ".intercalate items ++ "]"

def pair (a b : String) : String := "(" ++ a ++ ", " ++ b ++ ")"

/-- Named fields between braces, after the name of what has them. -/
def braced (name : String) (fields : List (String × String)) : String :=
  name ++ " \x7b " ++ ", ".intercalate (fields.map fun f => f.1 ++ ": " ++ f.2) ++ " \x7d"

end StepWeave.Text

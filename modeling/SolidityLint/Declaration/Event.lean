import SolidityLint.Declaration.Identifier
import SolidityLint.Text.Blank
import SolidityLint.Text.Occurrences
import SolidityLint.Text.Split

/-! Event declarations: the keyword, which may be the end of a longer word, white space, and the name. -/

namespace SolidityLint.Declaration

open Text

/-- The pieces of an event declaration after its keyword. -/
structure EventSpan where
  gap : List Char
  name : List Char
  deriving DecidableEq

namespace EventSpan

def chars (span : EventSpan) : List Char :=
  "event".toList ++ span.gap ++ span.name

def read? (cs : List Char) : Option EventSpan := do
  let rest ← afterWord? "event".toList cs
  let (gap, rest) := rest.span isBlank
  guard !gap.isEmpty
  let (name, _) ← identifier? rest
  return { gap, name }

end EventSpan

/-- The event declarations of a text with the lines they start on. -/
def events (cs : List Char) : List (Nat × EventSpan) :=
  occurrences (fun _ => EventSpan.read?) (·.chars.length) cs

end SolidityLint.Declaration

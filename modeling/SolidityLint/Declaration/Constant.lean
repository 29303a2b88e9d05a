import SolidityLint.Declaration.Identifier
import SolidityLint.Text.Blank
import SolidityLint.Text.Occurrences
import SolidityLint.Text.Split

/-! Constant declarations: a word in front of the keyword `constant`, with a visibility between them or with at
    least two characters of white space. -/

namespace SolidityLint.Declaration

open Text

/-- The pieces of a constant declaration. Without a visibility all white space is in `before`. -/
structure ConstantSpan where
  name : List Char
  before : List Char
  visibility : List Char
  after : List Char
  deriving DecidableEq

namespace ConstantSpan

def chars (span : ConstantSpan) : List Char :=
  span.name ++ span.before ++ span.visibility ++ span.after ++ "constant".toList

/-- The visibilities that may stand in front of the keyword. -/
def visibilities : List (List Char) :=
  ["public".toList, "private".toList, "internal".toList]

/-- The visibility that a text starts with, and what follows it. -/
def visibility? (cs : List Char) : Option (List Char × List Char) :=
  visibilities.findSome? fun word => (afterWord? word cs).map (word, ·)

def read? (cs : List Char) : Option ConstantSpan := do
  let (name, rest) ← identifier? cs
  let (before, rest) := rest.span isBlank
  guard !before.isEmpty
  if (afterWord? "constant".toList rest).isSome then
    guard (2 ≤ before.length)
    return { name, before, visibility := [], after := [] }
  else
    let (visibility, rest) ← visibility? rest
    let (after, rest) := rest.span isBlank
    guard !after.isEmpty
    guard (afterWord? "constant".toList rest).isSome
    return { name, before, visibility, after }

end ConstantSpan

/-- The constant declarations of a text with the lines they start on. -/
def constants (cs : List Char) : List (Nat × ConstantSpan) :=
  occurrences (fun _ => ConstantSpan.read?) (·.chars.length) cs

end SolidityLint.Declaration

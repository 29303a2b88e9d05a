import SolidityLint.Declaration.Identifier
import SolidityLint.Text.Blank
import SolidityLint.Text.Occurrences
import SolidityLint.Text.Split

/-! Contract declarations. A declaration starts at the start of a line and takes in the blank lines above the
    keyword. -/

namespace SolidityLint.Declaration

open Text

/-- The pieces of a contract declaration: white space, the keyword, white space, and the name. -/
structure ContractSpan where
  indent : List Char
  gap : List Char
  name : List Char
  deriving DecidableEq

namespace ContractSpan

def chars (span : ContractSpan) : List Char :=
  span.indent ++ "contract".toList ++ span.gap ++ span.name

def read? (atLineStart : Bool) (cs : List Char) : Option ContractSpan := do
  guard atLineStart
  let (indent, rest) := cs.span isBlank
  let rest ← afterWord? "contract".toList rest
  let (gap, rest) := rest.span isBlank
  guard !gap.isEmpty
  let (name, _) ← identifier? rest
  return { indent, gap, name }

end ContractSpan

/-- The contract declarations of a text with the lines they start on. -/
def contracts (cs : List Char) : List (Nat × ContractSpan) :=
  occurrences ContractSpan.read? (·.chars.length) cs

end SolidityLint.Declaration

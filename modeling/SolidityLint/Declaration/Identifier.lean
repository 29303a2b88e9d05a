/-! Identifiers of the language that is checked: a letter of ASCII or an underscore, then letters, digits and
    underscores. -/

namespace SolidityLint.Declaration

/-- Whether a character can start an identifier. -/
def isIdentifierStart (c : Char) : Bool :=
  c.isAlpha || c = '_'

/-- Whether a character can stand inside an identifier. -/
def isIdentifierChar (c : Char) : Bool :=
  c.isAlphanum || c = '_'

/-- The longest identifier that the text starts with, and what follows it. -/
def identifier? (cs : List Char) : Option (List Char × List Char) :=
  match cs with
  | [] => none
  | c :: _ => if isIdentifierStart c then some (cs.span isIdentifierChar) else none

end SolidityLint.Declaration

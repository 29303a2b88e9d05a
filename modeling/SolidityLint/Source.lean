import SolidityLint.Text.Lines
import SolidityLint.Text.Raw

/-! A file to check: the path under which it is reported, and its text. -/

namespace SolidityLint

/-- A file to check. -/
structure Source where
  path : RawText
  text : String
  deriving DecidableEq

def Source.lines (source : Source) : List (List Char) :=
  Text.lines source.text.toList

def Source.lineOf (source : Source) (offset : Int) : Nat :=
  Text.lineOf source.text.toList offset

end SolidityLint

import SolidityLint.Text.Split

/-! Lines of a text. Only the newline ends a line, and a text always has at least one line. -/

namespace SolidityLint.Text

/-- The text cut at its newlines. -/
def lines (cs : List Char) : List (List Char) :=
  splitOn '\n' cs

/-- The lines joined by newlines. -/
def unlines (lines : List (List Char)) : List Char :=
  joinWith '\n' lines

def lineCount (cs : List Char) : Nat :=
  cs.count '\n' + 1

theorem length_lines (cs : List Char) : (lines cs).length = lineCount cs :=
  length_splitOn '\n' cs

/-- An offset into a text of the given length: a negative one counts from the end, and what lies outside moves to
    the nearer end. -/
def clipOffset (length : Nat) (offset : Int) : Nat :=
  if offset < 0 then (offset + length).toNat else min offset.toNat length

/-- The number of the line that holds the character at an offset, counted from one. -/
def lineOf (cs : List Char) (offset : Int) : Nat :=
  lineCount (cs.take (clipOffset cs.length offset))

end SolidityLint.Text

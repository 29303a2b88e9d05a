import SolidityLint.Check.Context
import SolidityLint.Text.Blank
import SolidityLint.Text.Lines

/-! Lines should be short, without tabs, and without white space at their end. -/

namespace SolidityLint.Check

open Text

/-- Whether white space leads from the front of a text to its end, which is reached in front of a final newline too. -/
def blankToEnd : List Char → Bool
  | [] => true
  | c :: rest => (c :: rest) = ['\n'] || isBlank c && blankToEnd rest

/-- Whether white space that starts anywhere in a text leads to its end. -/
def endsBlank : List Char → Bool
  | [] => false
  | c :: rest => isBlank c && blankToEnd rest || endsBlank rest

/-- The violation of a line that is longer than the limit. -/
def maxLineLength (rules : LayoutRules) (number : Nat) (line : List Char) : List Violation :=
  match rules.maxLineLength with
  | some limit =>
    if limit.width < line.length then
      [⟨number, .maxLineLength,
        "Line length " ++ toString line.length ++ " exceeds maximum " ++ toString limit.width⟩]
    else []
  | none => []

def noTabs (rules : LayoutRules) (number : Nat) (line : List Char) : List Violation :=
  if rules.noTabs && line.contains '\t' then
    [⟨number, .noTabs, "Use spaces instead of tabs for indentation"⟩]
  else []

/-- The violation of a line that ends with white space. -/
def noTrailingWhitespace (rules : LayoutRules) (number : Nat) (line : List Char) : List Violation :=
  if rules.noTrailingWhitespace && endsBlank line then
    [⟨number, .noTrailingWhitespace, "Remove trailing whitespace"⟩]
  else []

def line (rules : LayoutRules) (number : Nat) (line : List Char) : List Violation :=
  maxLineLength rules number line ++ noTabs rules number line ++ noTrailingWhitespace rules number line

/-- The violations of the rules on single lines. Lines are numbered from one. -/
def layout (rules : LayoutRules) (text : List Char) : List Violation :=
  ((lines text).zipIdx 1).flatMap fun numbered => line rules numbered.2 numbered.1

/-- The pass over single lines. -/
def layoutPass (context : CheckContext) (rules : LayoutRules) (result : CheckResult) : CheckResult :=
  context.recordEach (fun numbered => line rules numbered.2 numbered.1) result ((lines context.text).zipIdx 1)

end SolidityLint.Check

import SolidityLint.Text.Blank
import SolidityLint.Text.Lines

/-! Import statements, one a line. A named import lists what it takes between braces; the path of an import stands
    in quotes after the word `from`. -/

namespace SolidityLint.Declaration

open Text

/-- An import statement without the white space around it, and the number of its line. -/
structure ImportLine where
  text : List Char
  line : Nat
  deriving DecidableEq

/-- Whether a line without the white space around it is an import statement. -/
def isImport (trimmed : List Char) : Bool :=
  "import ".toList.isPrefixOf trimmed

/-- The import statement that a numbered line holds. -/
def importAt? (line : List Char × Nat) : Option ImportLine :=
  let trimmed := trim line.1
  if isImport trimmed then some ⟨trimmed, line.2⟩ else none

/-- The import statements of lines, which are numbered from one. -/
def imports (lines : List (List Char)) : List ImportLine :=
  (lines.zipIdx 1).filterMap importAt?

def isQuote (c : Char) : Bool :=
  c = '"' || c = '\''

/-- The text in quotes that stands at the front, and what follows it. Each quote may be single or double. -/
def quotedText? (cs : List Char) : Option (List Char × List Char) :=
  match cs with
  | [] => none
  | c :: rest =>
    if isQuote c then
      let (inside, after) := rest.span (!isQuote ·)
      if inside.isEmpty then none
      else match after with
        | [] => none
        | _ :: after => some (inside, after)
    else none

/-- The path of a from-clause at the front of a text, and what follows it. -/
def fromClause? (cs : List Char) : Option (List Char × List Char) := do
  let rest ← afterWord? "from".toList cs
  let (gap, rest) := rest.span isBlank
  guard !gap.isEmpty
  quotedText? rest

/-- The path of the first from-clause in a text. -/
def importPath? : List Char → Option (List Char)
  | [] => none
  | c :: rest =>
    match fromClause? (c :: rest) with
    | some (path, _) => some path
    | none => importPath? rest

/-- The path of an import, if it has a from-clause. -/
def ImportLine.path? (statement : ImportLine) : Option (List Char) :=
  importPath? statement.text

/-- The parts of a named import that its writer chooses. -/
structure NamedImport where
  names : List Char
  path : List Char
  deriving DecidableEq

/-- The named import that a whole statement spells. -/
def NamedImport.read? (cs : List Char) : Option NamedImport := do
  let rest ← afterWord? "import".toList cs
  let (gap, rest) := rest.span isBlank
  guard !gap.isEmpty
  let rest ← afterWord? ['\x7b'] rest
  let (names, rest) := rest.span (· ≠ '\x7d')
  guard !names.isEmpty
  let rest ← afterWord? ['\x7d'] rest
  let (gap, rest) := rest.span isBlank
  guard !gap.isEmpty
  let (path, rest) ← fromClause? rest
  guard (rest = [] ∨ rest = [';'])
  return { names, path }

end SolidityLint.Declaration

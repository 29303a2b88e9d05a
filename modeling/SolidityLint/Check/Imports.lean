import SolidityLint.Check.Context
import SolidityLint.Declaration.Import

/-! Imports should name what they take, and neighbours should be in the order of their paths. -/

namespace SolidityLint.Check

open Text Declaration

/-- The violation of an import that does not name what it takes. -/
def namedOnly (rules : ImportRules) (current : ImportLine) : List Violation :=
  if rules.namedOnly && (NamedImport.read? current.text).isNone then
    [⟨current.line, .namedOnly, "Use named imports: import \x7bContract\x7d from \"./file.sol\""⟩]
  else []

/-- The violation of an import whose path comes before that of the import in front of it. Imports without a path
    are not compared. -/
def alphabetical (rules : ImportRules) (previous : Option ImportLine) (current : ImportLine) : List Violation :=
  match rules.alphabetical, current.path?, previous.bind ImportLine.path? with
  | true, some path, some before =>
    if path < before then
      [⟨current.line, .alphabetical, "Imports should be alphabetically ordered ('" ++ String.ofList path ++
        "' after '" ++ String.ofList before ++ "')"⟩]
    else []
  | _, _, _ => []

/-- The violations of an import, given the import in front of it. -/
def neighbours (rules : ImportRules) (pair : Option ImportLine × ImportLine) : List Violation :=
  namedOnly rules pair.2 ++ alphabetical rules pair.1 pair.2

/-- Imports, each with the import in front of it. -/
def withPrevious (statements : List ImportLine) : List (Option ImportLine × ImportLine) :=
  (none :: statements.map some).zip statements

def importList (rules : ImportRules) (statements : List ImportLine) : List Violation :=
  (withPrevious statements).flatMap (neighbours rules)

/-- The violations of the rules on imports. -/
def imports (rules : ImportRules) (text : List Char) : List Violation :=
  importList rules (Declaration.imports (lines text))

/-- The pass over import statements. -/
def importsPass (context : CheckContext) (rules : ImportRules) (result : CheckResult) : CheckResult :=
  context.recordEach (neighbours rules) result (withPrevious (Declaration.imports (lines context.text)))

end SolidityLint.Check

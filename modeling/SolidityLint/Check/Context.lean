import SolidityLint.Check.Violation
import SolidityLint.CheckResult
import SolidityLint.Config.Rules
import SolidityLint.Config.Severities
import SolidityLint.Source

/-! What the passes over a file share, and how they put what they find into the result of a check. -/

namespace SolidityLint

/-- The finding that a violation makes in a file. -/
def Violation.toFinding (severities : SeverityMap) (path : RawText) (violation : Violation) : Finding :=
  { path, line := violation.line, rule := violation.rule.id, code := violation.rule.code,
    message := violation.message, severity := severities.resolve violation.rule.id }

/-- What a pass is told: the file, the rules, and the severities of what it finds. -/
structure CheckContext where
  source : Source
  rules : RuleConfiguration
  severities : SeverityMap

namespace CheckContext

def text (context : CheckContext) : List Char :=
  context.source.text.toList

def finding (context : CheckContext) (violation : Violation) : Finding :=
  violation.toFinding context.severities context.source.path

/-- Adds the findings that violations make to a result, one after another. -/
def record (context : CheckContext) (result : CheckResult) (violations : List Violation) : CheckResult :=
  result.extend (violations.map context.finding)

/-- Looks at items one after another; what each of them violates is added before the next one is looked at. -/
def recordEach {α : Type} (context : CheckContext) (violations : α → List Violation) (result : CheckResult)
    (items : List α) : CheckResult :=
  items.foldl (fun result item => context.record result (violations item)) result

end CheckContext

end SolidityLint

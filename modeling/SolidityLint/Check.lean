import SolidityLint.Check.Header
import SolidityLint.Check.Imports
import SolidityLint.Check.Layout
import SolidityLint.Check.Naming

/-! The check of files: every category that is on passes over every file, in a fixed order, and all passes over all
    files add what they find to one result. -/

namespace SolidityLint

def Category.violations (category : Category) (rules : RuleConfiguration) (text : List Char) : List Violation :=
  match category with
  | .header => (rules.header.map fun rules => Check.header rules text).getD []
  | .imports => (rules.imports.map fun rules => Check.imports rules text).getD []
  | .naming => (rules.naming.map fun rules => Check.naming rules text).getD []
  | .layout => (rules.layout.map fun rules => Check.layout rules text).getD []

/-- What holds of no violations, and of those that each category finds with its settings, holds of the violations of
    every category. -/
theorem Category.violations_cases {motive : Category → List Violation → Prop} (rules : RuleConfiguration)
    (text : List Char) (off : ∀ category, motive category [])
    (header : ∀ settings, rules.header = some settings → motive .header (Check.header settings text))
    (imports : ∀ settings, rules.imports = some settings → motive .imports (Check.imports settings text))
    (naming : ∀ settings, rules.naming = some settings → motive .naming (Check.naming settings text))
    (layout : ∀ settings, rules.layout = some settings → motive .layout (Check.layout settings text))
    (category : Category) : motive category (category.violations rules text) := by
  cases category with
  | header =>
    cases h : rules.header with
    | none => simpa [violations, h] using off .header
    | some settings => simpa [violations, h] using header settings h
  | imports =>
    cases h : rules.imports with
    | none => simpa [violations, h] using off .imports
    | some settings => simpa [violations, h] using imports settings h
  | naming =>
    cases h : rules.naming with
    | none => simpa [violations, h] using off .naming
    | some settings => simpa [violations, h] using naming settings h
  | layout =>
    cases h : rules.layout with
    | none => simpa [violations, h] using off .layout
    | some settings => simpa [violations, h] using layout settings h

/-- The pass of a category over a file; a category that is off leaves the result as it is. -/
def Category.pass (category : Category) (context : CheckContext) (result : CheckResult) : CheckResult :=
  match category with
  | .header => match context.rules.header with
    | some rules => Check.headerPass context rules result
    | none => result
  | .imports => match context.rules.imports with
    | some rules => Check.importsPass context rules result
    | none => result
  | .naming => match context.rules.naming with
    | some rules => Check.namingPass context rules result
    | none => result
  | .layout => match context.rules.layout with
    | some rules => Check.layoutPass context rules result
    | none => result

/-- Notes a file in the result; then all categories pass over it. -/
def CheckContext.check (context : CheckContext) (result : CheckResult) : CheckResult :=
  Category.all.foldl (fun result category => category.pass context result) (result.addFile context.source.path)

/-- The findings of a category in a file: those of its pass by itself. -/
def Source.findingsOf (source : Source) (rules : RuleConfiguration) (severities : SeverityMap)
    (category : Category) : List Finding :=
  (category.pass ⟨source, rules, severities⟩ {}).findings

/-- The result of checking files in order. -/
def checkSources (sources : List Source) (rules : RuleConfiguration) (severities : SeverityMap) : CheckResult :=
  sources.foldl (fun result source => CheckContext.check ⟨source, rules, severities⟩ result) {}

end SolidityLint

import SolidityLint.Check
import SolidityLint.Config.Log

/-! What a verbose run tells about the check of files. -/

namespace SolidityLint

/-- The messages of categories that pass over a file one after another, after a result: how much each of them adds
    to it. -/
def CheckContext.passNotices (context : CheckContext) (result : CheckResult) : List Category → List Notice
  | [] => []
  | category :: rest =>
    let after := category.pass context result
    .categoryDone context.source.path category (after.findings.length - result.findings.length) ::
      context.passNotices after rest

/-- The messages about the check of a file after a result: that it begins, and how much each category adds. -/
def CheckContext.notices (context : CheckContext) (result : CheckResult) : List Notice :=
  .checking context.source.path :: context.passNotices (result.addFile context.source.path) Category.all

/-- The messages about the check of files, one after another, after a result. -/
def checkNotices (rules : RuleConfiguration) (severities : SeverityMap) (result : CheckResult) :
    List Source → List Notice
  | [] => []
  | source :: rest =>
    let context : CheckContext := ⟨source, rules, severities⟩
    context.notices result ++ checkNotices rules severities (context.check result) rest

end SolidityLint

import SolidityLint.CheckResult

/-! The report of a check in plain text: the findings file by file, a table of counts, and the verdict. -/

namespace SolidityLint.Report

/-- A text filled up with blanks on its right. -/
def padRight (width : Nat) (s : String) : String :=
  s ++ String.ofList (List.replicate (width - s.length) ' ')

/-- A text filled up with blanks on its left. -/
def padLeft (width : Nat) (s : String) : String :=
  String.ofList (List.replicate (width - s.length) ' ') ++ s

/-- A row of the table of counts. -/
def row (left right : String) : String :=
  padRight 10 left ++ " | " ++ padLeft 5 right

/-- A line between the parts of the table. -/
def rule : String :=
  String.ofList (List.replicate 18 '-')

/-- The two lines about a finding. -/
def findingLines (f : Finding) : List String :=
  ["  [" ++ f.severity.word ++ "] Line " ++ toString f.line ++ ": " ++ f.message,
    "      Rule: " ++ f.rule ++ " (" ++ f.code ++ ")"]

/-- The lines about a file. -/
def groupLines (group : RawText × List Finding) : List RawText :=
  "" :: (group.1 ++ ":") :: (group.2.flatMap findingLines).map .ofString

def bodyLines (groups : List (RawText × List Finding)) : List RawText :=
  if groups.isEmpty then ["All style checks passed!"] else groups.flatMap groupLines

def tableLines (summary : Summary) : List String :=
  [row "Severity" "Count", rule] ++ summary.rows.map (fun entry => row entry.1 (toString entry.2)) ++ [rule]

def verdictLines (result : CheckResult) : List String :=
  ["Files     : " ++ toString result.files.length, "Status    : " ++ if result.passed then "PASS" else "FAIL"] ++
    if result.passed then [] else ["", "Fix errors before proceeding with deployment or review."]

/-- The lines of a report. -/
def lines (result : CheckResult) : List RawText :=
  ["Style Check Results", String.ofList (List.replicate 40 '=')].map .ofString ++ bodyLines result.groups ++
    (["", "Summary"] ++ tableLines result.summary ++ verdictLines result).map .ofString

end SolidityLint.Report

namespace SolidityLint

def CheckResult.report (result : CheckResult) : RawText :=
  RawText.joined "\n" (Report.lines result)

end SolidityLint

import SolidityLint.Proofs.Report.Lossless
import SolidityLint.Proofs.Verdict

/-! What a report says about a result as a whole. The lines of its text are known at both ends, whatever the paths in
    between are: the third line tells whether anything was found, and the last ones give the counts and the verdict. -/

namespace SolidityLint.Report

open RawText (ofString)

/-- The lines before the findings. -/
def opening : List String :=
  ["Style Check Results", String.ofList (List.replicate 40 '=')]

/-- The lines behind the findings of a report that tells these counts and this verdict. -/
def closing (summary : Summary) (passed : Bool) : List String :=
  ["", "Summary", row "Severity" "Count", rule, row "error" (toString summary.error),
    row "warning" (toString summary.warning), row "info" (toString summary.info), rule,
    "Files     : " ++ toString summary.files, "Status    : " ++ if passed then "PASS" else "FAIL"] ++
    if passed then [] else ["", "Fix errors before proceeding with deployment or review."]

theorem closing_eq (result : CheckResult) :
    closing result.summary result.passed = "" :: "Summary" :: tailLines result := by
  simp [closing, tailLines, tableLines, verdictLines, Summary.rows, Severity.all, Severity.word, Summary.count,
    CheckResult.summary, Summary.ofFindings]

/-- The lines of the text of a report. Only those about files may be more than the lines it was made of, since a path
    can have a newline in it. -/
theorem lines_report (result : CheckResult) :
    result.report.lines = opening.map ofString ++ (bodyLines result.groups).flatMap RawText.lines ++
      (closing result.summary result.passed).map ofString := by
  have opened : ∀ line ∈ opening.map ofString, line.OnOneLine := by
    simp only [opening, List.forall_mem_map, List.forall_mem_cons, RawText.onOneLine_ofString]
    exact ⟨by decide, by decide, List.forall_mem_nil _⟩
  have closed : ∀ line ∈ (closing result.summary result.passed).map ofString, line.OnOneLine := by
    rw [closing_eq]
    simp only [List.forall_mem_map, List.forall_mem_cons, RawText.onOneLine_ofString]
    exact ⟨by decide, by decide, tailLines_onOneLine result⟩
  have parts : lines result = opening.map ofString ++ bodyLines result.groups ++
      (closing result.summary result.passed).map ofString := by
    rw [closing_eq, lines_eq]
    simp [opening]
  rw [CheckResult.report, RawText.lines_joined (by rw [lines_eq]; exact List.cons_ne_nil _ _), parts,
    List.flatMap_append, List.flatMap_append, RawText.flatMap_lines_eq_self opened,
    RawText.flatMap_lines_eq_self closed]

/-- The third line says that all checks passed if nothing was found at all; a warning is enough to keep it away. -/
theorem third_line_report_iff (result : CheckResult) :
    result.report.lines[2]? = some (ofString "All style checks passed!") ↔ result.findings = [] := by
  rw [← result.groups_eq_nil_iff, lines_report]
  cases groups : result.groups with
  | nil => simp [opening, bodyLines, RawText.lines_eq_singleton]
  | cons group others =>
    obtain ⟨more, body⟩ : ∃ more, bodyLines (group :: others) = ofString "" :: more := ⟨_, rfl⟩
    have blank : (ofString "").lines = [ofString ""] := RawText.lines_eq_singleton (by simp)
    have other : ofString "" ≠ ofString "All style checks passed!" := by decide
    rw [body, List.flatMap_cons, blank]
    simp [opening, other]

/-- The line about the status in the text of a report: the last one that starts as such a line does. -/
def statusLine? (report : RawText) : Option RawText :=
  report.lines.reverse.find? fun line => (ofString "Status    : ").points.isPrefixOf line.points

theorem statusLine?_report (result : CheckResult) :
    statusLine? result.report = some ("Status    : " ++ if result.passed then "PASS" else "FAIL" : String) := by
  rw [statusLine?, lines_report, List.reverse_append, List.find?_append]
  cases result.passed <;> rfl

end SolidityLint.Report

import SolidityLint.CheckResult

/-! The verdict on a result. Exit code, verdict and counts are computed from the findings each by itself; all of them
    depend on whether a finding is an error. -/

namespace SolidityLint

namespace CheckResult

variable {result : CheckResult}

theorem hasBlocking_iff : result.hasBlocking = true ↔ ∃ finding ∈ result.findings, finding.severity = .error := by
  simp [hasBlocking, Severity.isBlocking]

theorem exitCode_eq_one_iff : result.exitCode = 1 ↔ ∃ finding ∈ result.findings, finding.severity = .error := by
  rw [← hasBlocking_iff, exitCode]
  cases result.hasBlocking <;> simp

theorem exitCode_le_one (result : CheckResult) : result.exitCode ≤ 1 := by
  unfold exitCode
  split <;> decide

theorem exitCode_eq_one_iff_passed : result.exitCode = 1 ↔ result.passed = false := by
  rw [exitCode, passed]
  cases result.hasBlocking <;> simp

theorem count_summary (result : CheckResult) (s : Severity) :
    result.summary.count s = result.findings.countP (·.severity = s) := by
  cases s <;> rfl

theorem error_pos_iff : 0 < result.summary.error ↔ ∃ finding ∈ result.findings, finding.severity = .error := by
  rw [show result.summary.error = _ from result.count_summary .error, List.countP_pos_iff]
  simp

/-- A finding is counted under its severity and under no other. -/
theorem total_summary (result : CheckResult) : result.summary.total = result.findings.length := by
  unfold summary Summary.ofFindings Summary.total
  induction result.findings with
  | nil => rfl
  | cons finding rest ih =>
    simp only [List.countP_cons, List.length_cons] at ih ⊢
    cases finding.severity <;> simp <;> omega

end CheckResult

/-! ### The document of a result -/

namespace Json

/-- The text of a document that is one. -/
def text? : Json → Option RawText
  | .str s => some s
  | _ => none

/-- Whether a document names this severity as its own. -/
def hasSeverity (severity : Severity) (document : Json) : Bool :=
  (document.member? "severity").bind text? = some (.ofString severity.word)

end Json

theorem Finding.hasSeverity_toJson (finding : Finding) (s : Severity) :
    finding.toJson.hasSeverity s = decide (finding.severity = s) := by
  have stated : (finding.toJson.member? "severity").bind Json.text? = some (.ofString finding.severity.word) := rfl
  rw [Json.hasSeverity, stated, decide_eq_decide, Option.some_inj]
  exact ⟨fun same => Severity.word_injective (RawText.ofString_injective same), fun same => same ▸ rfl⟩

namespace CheckResult

theorem member?_summary (result : CheckResult) :
    result.toJson.member? "summary" = some result.summary.toJson := rfl

theorem member?_findings (result : CheckResult) :
    result.toJson.member? "findings" = some (.arr (result.findings.map Finding.toJson)) := rfl

theorem member?_passed (result : CheckResult) : result.toJson.member? "passed" = some (.bool result.passed) := rfl

theorem countP_hasSeverity (result : CheckResult) (s : Severity) :
    (result.findings.map Finding.toJson).countP (Json.hasSeverity s) = result.summary.count s := by
  rw [List.countP_map, count_summary]
  exact List.countP_congr fun finding _ => by rw [Function.comp_apply, finding.hasSeverity_toJson]

end CheckResult

end SolidityLint

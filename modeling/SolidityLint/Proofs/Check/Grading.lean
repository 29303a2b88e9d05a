import Mathlib.Data.List.Basic
import Mathlib.Data.List.Forall2
import SolidityLint.Proofs.Check.Accumulation
import SolidityLint.Proofs.Verdict

/-! Severities grade findings and do nothing else. No pass looks at a severity, so under other severities the same
    is found, and only the grades differ (`Finding.regrade`). A check depends on its severities through the rules of
    its findings alone. -/

namespace SolidityLint

/-- The finding with the severity that other severities give to its rule. -/
def Finding.regrade (severities : SeverityMap) (finding : Finding) : Finding :=
  { finding with severity := severities.resolve finding.rule }

/-- Findings that differ in their severity at most. -/
structure Finding.SameViolation (one two : Finding) : Prop where
  path : one.path = two.path
  line : one.line = two.line
  rule : one.rule = two.rule
  code : one.code = two.code
  message : one.message = two.message

/-- The severity that a configuration sets for an identifier. -/
def SeverityMap.override? (severities : SeverityMap) (id : String) : Option Severity :=
  (severities.overrides.find? (·.1 = RawText.ofString id)).map (·.2)

theorem SeverityMap.resolve_eq (severities : SeverityMap) (id : String) :
    severities.resolve id = (severities.override? id).getD (((Rule.ofId? id).map Rule.severity).getD .error) := by
  unfold resolve override?
  cases severities.overrides.find? (·.1 = RawText.ofString id) <;> rfl

theorem SeverityMap.resolve_congr {first second : SeverityMap} {id : String}
    (h : first.override? id = second.override? id) : first.resolve id = second.resolve id := by
  rw [resolve_eq, resolve_eq, h]

theorem Violation.regrade_toFinding (violation : Violation) (first second : SeverityMap) (path : RawText) :
    (violation.toFinding first path).regrade second = violation.toFinding second path := rfl

theorem Finding.sameViolation_regrade (finding : Finding) (severities : SeverityMap) :
    finding.SameViolation (finding.regrade severities) :=
  ⟨rfl, rfl, rfl, rfl, rfl⟩

section Regrading

variable (sources : List Source) (rules : RuleConfiguration)

theorem findings_eq_map_regrade (first second : SeverityMap) :
    (checkSources sources rules second).findings =
      (checkSources sources rules first).findings.map (·.regrade second) := by
  rw [findings_checkSources, findings_checkSources, List.map_flatMap]
  refine List.flatMap_congr fun source _ => ?_
  rw [source.findings_eq_map, source.findings_eq_map, List.map_map]
  exact List.map_congr_left fun violation _ => (violation.regrade_toFinding first second source.path).symm

/-- Every finding has the severity of its rule. -/
theorem severity_of_mem_findings (severities : SeverityMap) :
    ∀ finding ∈ (checkSources sources rules severities).findings,
      finding.severity = severities.resolve finding.rule := by
  intro finding hf
  rw [findings_eq_map_regrade sources rules severities severities] at hf
  obtain ⟨found, -, rfl⟩ := List.mem_map.mp hf
  rfl

/-- Severities that agree on the rules of what is found give the same result. -/
theorem checkSources_congr {first second : SeverityMap}
    (h : ∀ finding ∈ (checkSources sources rules first).findings,
      first.resolve finding.rule = second.resolve finding.rule) :
    checkSources sources rules second = checkSources sources rules first := by
  have unchanged : ∀ finding ∈ (checkSources sources rules first).findings, finding.regrade second = finding := by
    intro finding hf
    rw [Finding.regrade, ← h finding hf, ← severity_of_mem_findings sources rules first finding hf]
  have findings : (checkSources sources rules second).findings = (checkSources sources rules first).findings := by
    rw [findings_eq_map_regrade sources rules first second]
    exact (List.map_congr_left unchanged).trans (List.map_id' _)
  have files : (checkSources sources rules second).files = (checkSources sources rules first).files := by
    rw [files_checkSources, files_checkSources]
  show CheckResult.mk (checkSources sources rules second).files (checkSources sources rules second).findings = _
  rw [files, findings]

end Regrading

/-- Under any two severities the same is found in the same files; every finding has the severity of its rule, so
    these alone decide the exit code; and what is set for rules of which nothing is found changes nothing. -/
theorem severities_only_grade (sources : List Source) (rules : RuleConfiguration) :
    (∀ first second : SeverityMap,
      let one := checkSources sources rules first
      let two := checkSources sources rules second
      one.files = two.files ∧ List.Forall₂ Finding.SameViolation one.findings two.findings) ∧
    (∀ severities : SeverityMap,
      let result := checkSources sources rules severities
      (∀ finding ∈ result.findings, finding.severity = severities.resolve finding.rule) ∧
        (result.exitCode = 1 ↔ ∃ finding ∈ result.findings, severities.resolve finding.rule = .error)) ∧
    (∀ first second : SeverityMap,
      (∀ finding ∈ (checkSources sources rules first).findings,
        first.override? finding.rule = second.override? finding.rule) →
      checkSources sources rules second = checkSources sources rules first) := by
  refine ⟨fun first second => ⟨?_, ?_⟩, fun severities => ⟨?_, ?_⟩, fun first second h => ?_⟩
  · rw [files_checkSources, files_checkSources]
  · rw [findings_eq_map_regrade sources rules first second, List.forall₂_map_right_iff, List.forall₂_same]
    exact fun finding _ => finding.sameViolation_regrade second
  · exact severity_of_mem_findings sources rules severities
  · rw [CheckResult.exitCode_eq_one_iff]
    refine exists_congr fun finding => and_congr_right fun hf => ?_
    rw [severity_of_mem_findings sources rules severities finding hf]
  · exact checkSources_congr sources rules fun finding hf => SeverityMap.resolve_congr (h finding hf)

/-- A file with a badly named contract and a tab: what is set for the order of imports, and for no rule, changes
    nothing. -/
theorem severities_only_grade_unused :
    let sources : List Source := [⟨"a.sol", "contract a\t"⟩]
    let second : SeverityMap := ⟨[("imports.alphabetical", .error), ("no.rule", .info)]⟩
    let finding : Finding := ⟨"a.sol", 1, "naming.contracts", "ContractNaming",
      "Contract name 'a' should use CapWords style", .error⟩
    finding ∈ (checkSources sources .builtin {}).findings ∧
      finding.severity = ({} : SeverityMap).resolve finding.rule ∧
      (∀ finding ∈ (checkSources sources .builtin {}).findings,
        ({} : SeverityMap).override? finding.rule = second.override? finding.rule) ∧
      checkSources sources .builtin second = checkSources sources .builtin {} := by
  intro sources second finding
  have found : finding ∈ (checkSources sources .builtin {}).findings := by decide +kernel
  have unused : ∀ finding ∈ (checkSources sources .builtin {}).findings,
      ({} : SeverityMap).override? finding.rule = second.override? finding.rule := by decide +kernel
  have ⟨_, graded, congruent⟩ := severities_only_grade sources .builtin
  exact ⟨found, (graded {}).1 finding found, unused, congruent {} second unused⟩

end SolidityLint

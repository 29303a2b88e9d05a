import SolidityLint.Proofs.Config.Checks
import SolidityLint.Proofs.Report.Verdict
import SolidityLint.Run

/-! One verdict everywhere. A run that comes to its end gives its result several times: as an exit code, in the report
    that it prints, and in the JSON document that it prints or writes if asked to. Each of them is computed by itself
    from the findings; they agree, and so do their counts. -/

namespace SolidityLint

open CommandLine (Options)

namespace Run

/-! ### How a check comes to its result -/

theorem length_loadSources {fs : FileSystem} {directory : Path} {files : List Path} {sources : List Source}
    (h : loadSources fs directory files = (sources, none)) : sources.length = files.length := by
  induction files generalizing sources with
  | nil =>
    obtain ⟨rfl, -⟩ := Prod.mk.inj h
    rfl
  | cons file rest ih =>
    unfold loadSources at h
    split at h
    · cases (Prod.mk.inj h).2
    · obtain ⟨rfl, all⟩ := Prod.mk.inj h
      rw [List.length_cons, List.length_cons, ih (Prod.ext rfl all)]

theorem reportable_eq_ok_iff {made result : CheckResult} :
    reportable made = .ok result ↔ result = made ∧ made.toJson.isShowable = true := by
  rw [reportable]
  split
  · rename_i short
    simp [short, eq_comm]
  · rename_i long
    simp [long]

theorem checkFiles_eq_ok_iff {fs : FileSystem} {config : CheckerConfig} {result : CheckResult} :
    (checkFiles fs config).2 = .ok result ↔
      ∃ files sources, discover fs (.ofText config.sourceDir) config.contractNames = .ok files ∧
        loadSources fs (.ofText config.sourceDir) files = (sources, none) ∧
        result = checkSources sources config.rules config.severities ∧ result.toJson.isShowable = true := by
  unfold checkFiles
  dsimp only
  constructor
  · intro h
    split at h
    · cases h
    · rename_i files found
      cases loaded : loadSources fs (.ofText config.sourceDir) files with
      | mk sources failure =>
        rw [loaded] at h
        cases failure with
        | some e => cases h
        | none =>
          obtain ⟨rfl, short⟩ := reportable_eq_ok_iff.mp h
          exact ⟨files, sources, found, loaded, rfl, short⟩
  · rintro ⟨files, sources, found, loaded, rfl, short⟩
    rw [found]
    dsimp only
    rw [loaded]
    exact reportable_eq_ok_iff.mpr ⟨rfl, short⟩

theorem checkFiles_of_discover_error {fs : FileSystem} {config : CheckerConfig} {e : DiscoveryError}
    (failed : discover fs (.ofText config.sourceDir) config.contractNames = .error e) :
    checkFiles fs config = ([], .error (.discovery e)) := by
  unfold checkFiles
  dsimp only
  rw [failed]

theorem check_eq_bind (fs : FileSystem) (options : Options) :
    (check fs options).2 = (settle fs options).2.bind fun config => (checkFiles fs config).2 := by
  unfold check
  generalize settle fs options = settled
  obtain ⟨notices, e | config⟩ := settled
  · rfl
  · rfl

theorem check_eq_ok_iff {fs : FileSystem} {options : Options} {result : CheckResult} :
    (check fs options).2 = .ok result ↔
      ∃ config, (settle fs options).2 = .ok config ∧ (checkFiles fs config).2 = .ok result := by
  rw [check_eq_bind]
  cases (settle fs options).2 with
  | error e => exact ⟨nofun, fun ⟨_, settled, _⟩ => nomatch settled⟩
  | ok config => exact ⟨fun h => ⟨config, rfl, h⟩, fun ⟨_, settled, h⟩ => Except.ok.inj settled ▸ h⟩

/-- The files of a result are as many as were found. -/
theorem files_of_check_eq_ok {fs : FileSystem} {options : Options} {result : CheckResult}
    (h : (check fs options).2 = .ok result) :
    ∃ config files, (settle fs options).2 = .ok config ∧
      discover fs (.ofText config.sourceDir) config.contractNames = .ok files ∧
      result.summary.files = files.length := by
  obtain ⟨config, settled, h⟩ := check_eq_ok_iff.mp h
  obtain ⟨files, sources, found, loaded, rfl, -⟩ := checkFiles_eq_ok_iff.mp h
  refine ⟨config, files, settled, found, ?_⟩
  rw [← length_loadSources loaded, CheckResult.summary, Summary.ofFindings, files_checkSources, List.length_map]

/-! ### What a run puts out -/

theorem payload_eq_ok_iff {result : CheckResult} {document : String} :
    payload result = .ok document ↔ result.toJson.isShowable = true ∧ document = result.toJson.print := by
  rw [payload, Json.print?]
  split
  · rename_i found
    split at found
    · rename_i short
      obtain rfl := Option.some.inj found
      simp [short, eq_comm]
    · cases found
  · rename_i found
    split at found
    · cases found
    · rename_i long
      simp [long]

/-- What a check results in has a document. -/
theorem payload_of_check {fs : FileSystem} {options : Options} {result : CheckResult}
    (checked : (check fs options).2 = .ok result) : payload result = .ok result.toJson.print := by
  obtain ⟨_, -, h⟩ := check_eq_ok_iff.mp checked
  obtain ⟨_, _, -, -, -, short⟩ := checkFiles_eq_ok_iff.mp h
  exact payload_eq_ok_iff.mpr ⟨short, rfl⟩

/-- What follows the report if nothing fails: the document in a file, or printed, or nothing. -/
def deliveries (options : Options) (result : CheckResult) : List Effect :=
  if options.out ≠ "" then
    [.ensureDirectories (Path.ofText options.out).parent, .writeFile (.ofText options.out) result.toJson.print,
      .output ("\nReport written to " ++ options.out ++ "\n")]
  else match options.format with
    | .text => []
    | .json => [.output ("\nJSON Report\n" ++ result.toJson.print ++ "\n")]

theorem writeDocument_of_exit {fs : FileSystem} {out document : String} {code given : Nat}
    (h : (writeDocument fs out document code).ending = .exit given) :
    writeDocument fs out document code = ⟨[.ensureDirectories (Path.ofText out).parent,
      .writeFile (.ofText out) document, .output ("\nReport written to " ++ out ++ "\n")], .exit code⟩ := by
  unfold writeDocument at h ⊢
  dsimp only at h ⊢
  split at h
  · cases h
  · split at h
    · cases h
    · rfl

theorem deliver_of_exit {fs : FileSystem} {options : Options} {result : CheckResult} {code : Nat}
    (h : (deliver fs options result).ending = .exit code) :
    deliver fs options result = ⟨deliveries options result, .exit result.exitCode⟩ := by
  unfold deliver deliveries at *
  cases told : payload result with
  | error e => rw [told] at h; cases h
  | ok document =>
    obtain ⟨-, rfl⟩ := payload_eq_ok_iff.mp told
    rw [told] at h
    dsimp only at h ⊢
    by_cases asked : options.out = ""
    · rw [if_neg (by simp [asked]), if_neg (by simp [asked])]
      cases options.format <;> rfl
    · rw [if_pos (by simpa using asked)] at h
      rw [if_pos (by simpa using asked), if_pos asked, writeDocument_of_exit h]

/-- A run that comes to the end of what it puts out: it makes a check, and nothing breaks it off. -/
structure Completes (fs : FileSystem) (arguments : List String) (options : Options) (result : CheckResult)
    (code : Nat) : Prop where
  asked : Options.ofArguments arguments = .ok options
  checked : (check fs options).2 = .ok result
  ended : (run fs arguments).ending = .exit code

section

variable {fs : FileSystem} {arguments : List String} {options : Options} {result : CheckResult} {code : Nat}

theorem run_of_checked (asked : Options.ofArguments arguments = .ok options)
    (checked : (check fs options).2 = .ok result) :
    run fs arguments = ((deliver fs options result).precededBy [.output (result.report ++ "\n")]).precededBy
      (progress options (check fs options).1) := by
  rw [run, asked]
  dsimp only
  unfold withOptions
  generalize check fs options = found at checked ⊢
  obtain ⟨notices, _⟩ := found
  obtain rfl := checked
  rfl

theorem Completes.run_eq (h : Completes fs arguments options result code) :
    run fs arguments = ⟨progress options (check fs options).1 ++
      .output (result.report ++ "\n") :: deliveries options result, .exit result.exitCode⟩ := by
  have made := run_of_checked h.asked h.checked
  have ended := h.ended
  rw [made] at ended ⊢
  rw [deliver_of_exit ended]
  rfl

theorem Completes.code_eq (h : Completes fs arguments options result code) : code = result.exitCode := by
  have ended := h.ended
  rw [h.run_eq] at ended
  exact (Ending.exit.inj ended).symm

/-- Only the writing of a file can keep a run that makes a check from its end. -/
theorem completes_of_out_eq_empty (asked : Options.ofArguments arguments = .ok options)
    (checked : (check fs options).2 = .ok result) (out : options.out = "") :
    Completes fs arguments options result result.exitCode := by
  refine ⟨asked, checked, ?_⟩
  rw [run_of_checked asked checked, deliver, payload_of_check checked]
  dsimp only
  rw [if_neg (by simp [out])]
  cases options.format <;> rfl

end

end Run

open Run

/-- A run that completes what it puts out gives one verdict by its exit code, by its findings, by the document and by
    the report, and the same counts in the document and in the report, which are those of the findings that each of
    them lists. A report says that all checks passed only if there is no finding at all, whatever the severities. -/
theorem one_verdict {fs : FileSystem} {arguments : List String} {options : Options} {result : CheckResult} {code : Nat}
    (h : Completes fs arguments options result code) :
    -- What is put out.
    (run fs arguments).effects = progress options (check fs options).1 ++
      .output (result.report ++ "\n") :: deliveries options result ∧
    -- The verdict.
    (code = 0 ∨ code = 1) ∧
    (code = 1 ↔ ∃ finding ∈ result.findings, finding.severity = .error) ∧
    (code = 1 ↔ 0 < result.summary.error) ∧
    (code = 1 ↔ result.toJson.member? "passed" = some (.bool false)) ∧
    (code = 1 ↔ Report.statusLine? result.report = some (.ofString "Status    : FAIL")) ∧
    (code = 0 ↔ Report.statusLine? result.report = some (.ofString "Status    : PASS")) ∧
    -- The counts, in the report and in the document, and what each of them lists.
    result.report.lines = Report.opening.map .ofString ++ (Report.bodyLines result.groups).flatMap RawText.lines ++
      (Report.closing result.summary (code = 0)).map .ofString ∧
    (∀ s, result.summary.count s = (result.groups.flatMap (·.2)).countP (·.severity = s)) ∧
    (∃ items, result.toJson.member? "summary" = some result.summary.toJson ∧
      result.toJson.member? "findings" = some (.arr items) ∧
      result.summary.error + result.summary.warning + result.summary.info = items.length ∧
      ∀ s, result.summary.count s = items.countP (Json.hasSeverity s)) ∧
    (∃ config files, (settle fs options).2 = .ok config ∧
      discover fs (.ofText config.sourceDir) config.contractNames = .ok files ∧
      result.summary.files = files.length) ∧
    (result.report.lines[2]? = some (.ofString "All style checks passed!") ↔ result.findings = []) := by
  have ended := h.code_eq
  have passed : result.passed = decide (code = 0) := by
    rw [ended, CheckResult.passed, CheckResult.exitCode]
    cases result.hasBlocking <;> rfl
  have failed : code = 1 ↔ result.passed = false := by rw [ended, result.exitCode_eq_one_iff_passed]
  have verdict : code = 0 ∨ code = 1 := by
    have := result.exitCode_le_one
    omega
  have counts (s : Severity) : result.summary.count s = (result.groups.flatMap (·.2)).countP (·.severity = s) := by
    rw [result.count_summary, result.flatMap_groups_perm.countP_eq]
  refine ⟨by rw [h.run_eq], verdict, ?_, ?_, ?_, ?_, ?_, ?_, counts, ?_, files_of_check_eq_ok h.checked,
    Report.third_line_report_iff result⟩
  · rw [ended, CheckResult.exitCode_eq_one_iff]
  · rw [ended, CheckResult.exitCode_eq_one_iff, CheckResult.error_pos_iff]
  · rw [failed, result.member?_passed, Option.some_inj, Json.bool.injEq]
  · rw [failed, Report.statusLine?_report]
    cases result.passed <;> decide
  · rw [Report.statusLine?_report, passed]
    rcases verdict with rfl | rfl <;> decide
  · rw [← passed, Report.lines_report]
  · refine ⟨_, result.member?_summary, result.member?_findings, ?_, fun s => (result.countP_hasSeverity s).symm⟩
    rw [List.length_map, ← result.total_summary, Summary.total]

/-- Two errors in a file, and the document printed. -/
theorem one_verdict_two_errors :
    let fs : FileSystem :=
      ⟨.directory [("src", .directory [("a.sol", .file (Utf8.encode "contract lower {}".toList))])], []⟩
    let result := checkSources [⟨"src/a.sol", "contract lower {}"⟩] .builtin {}
    Completes fs ["--format", "json"] { format := .json } result 1 ∧
      result.toJson.member? "passed" = some (.bool false) ∧
      Report.statusLine? result.report = some (.ofString "Status    : FAIL") ∧
      result.summary = ⟨1, 2, 0, 0⟩ := by
  intro fs result
  have asked : Options.ofArguments ["--format", "json"] = .ok { format := .json } := by decide +kernel
  have checked : (check fs { format := .json }).2 = .ok result := eq_ok_of_toOption (by decide +kernel)
  have fails : result.exitCode = 1 := by decide +kernel
  have completes : Completes fs ["--format", "json"] { format := .json } result 1 :=
    fails ▸ completes_of_out_eq_empty asked checked rfl
  obtain ⟨-, -, -, -, document, status, -⟩ := one_verdict completes
  exact ⟨completes, document.mp rfl, status.mp rfl, by decide +kernel⟩

end SolidityLint

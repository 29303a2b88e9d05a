import SolidityLint.Proofs.Config.Loading
import SolidityLint.Proofs.Run.Configuration

/-! Configurations that cannot be loaded. If the document is read and its content is at fault, the run says so and ends
    with the code for that, unless the fault cannot be shown. If the document is not read, because its bytes are no text
    or its form is broken, the run is broken off and says nothing. -/

namespace SolidityLint

open CommandLine (Options)

/-- A failure that a run reports: a fault of the content of the configuration that can be shown. -/
def LoadFailure.IsReported (e : LoadFailure) : Prop :=
  ∃ fault, e = .content fault ∧ fault ≠ .numberTooLong

namespace Run

variable {fs : FileSystem} {arguments : List String} {options : Options} {e : LoadFailure}

theorem fail_of_isReported {fault : ConfigError} (shown : fault ≠ .numberTooLong) :
    fail (.loading (.content fault)) =
      ⟨[.diagnostic ("Style check failed: " ++ fault.message ++ "\n")], .exit 2⟩ := by
  cases fault <;> first | rfl | exact absurd rfl shown

theorem fail_of_not_isReported (h : ¬e.IsReported) : fail (.loading e) = ⟨[], .broken (.loading e)⟩ := by
  cases e with
  | content fault =>
    obtain rfl : fault = .numberTooLong := by_contra fun shown => h ⟨fault, rfl, shown⟩
    rfl
  | _ => rfl

theorem check_of_load_error (options : Options) (named : options.config ≠ "")
    (failed : (CheckerConfig.load fs (.ofText options.config)).2 = .error e) :
    check fs options = ((CheckerConfig.load fs (.ofText options.config)).1, .error (.loading e)) := by
  have given : ¬options.config.isEmpty = true := by simpa using named
  rw [check, settle, if_neg given]
  generalize CheckerConfig.load fs (.ofText options.config) = loaded at failed
  obtain ⟨notices, _⟩ := loaded
  obtain rfl := failed
  rfl

/-- A run ends with the code for errors just if it makes its check and completes what it puts out, and has found an
    error. -/
theorem exit_one_iff (fs : FileSystem) (arguments : List String) :
    (run fs arguments).ending = .exit 1 ↔ ∃ options result, Completes fs arguments options result 1 ∧
      ∃ finding ∈ result.findings, finding.severity = .error := by
  constructor
  · intro ended
    cases asked : Options.ofArguments arguments with
    | error halt =>
      rw [run, asked] at ended
      cases halt <;> cases ended
    | ok options =>
      cases checked : (check fs options).2 with
      | error e =>
        rw [run_of_check_error asked checked] at ended
        cases code_of_fail ended
      | ok result =>
        have completes : Completes fs arguments options result 1 := ⟨asked, checked, ended⟩
        exact ⟨options, result, completes, CheckResult.exitCode_eq_one_iff.mp completes.code_eq.symm⟩
  · rintro ⟨options, result, completes, -⟩
    exact completes.ended

end Run

open Run CheckerConfig

/-- When a file that is there is named as the configuration and cannot be loaded, nothing is printed on standard output
    and all files are as they were. A fault of its content is reported in one line, and the run ends with the code for
    a failed setup, unless a number in what would be shown has too many digits. Then, and if the document cannot be
    read, the run is broken off without a line; a short file that is not in UTF-8 is one that cannot be read. The code
    for errors stands for a check that has found one, and for nothing else. -/
theorem setup_failure (fs : FileSystem) (arguments : List String) :
    (∀ options path bytes, Options.ofArguments arguments = .ok options → options.config ≠ "" →
      path = .ofText options.config → fs.entry? path = .ok (some (.file bytes)) →
      (∀ e, (load fs path).2 = .error e ↔
        (∃ fault, Yaml.load purpose bytes = .error fault ∧ e = .form fault) ∨
          ∃ value fault, Yaml.load purpose bytes = .ok value ∧ ofValue path.text value = .error fault ∧
            e = .content fault) ∧
      (∀ e, (load fs path).2 = .error e →
        LeavesNothing fs (run fs arguments) ∧
        (∀ fault, e = .content fault → fault ≠ .numberTooLong →
          run fs arguments = ⟨progress options (load fs path).1 ++
            [.diagnostic ("Style check failed: " ++ fault.message ++ "\n")], .exit 2⟩) ∧
        (¬e.IsReported → run fs arguments = ⟨progress options (load fs path).1, .broken (.loading e)⟩)) ∧
      (bytes.length < Yaml.Input.pieceSize → (∃ e, Utf8.decodeStrict bytes = .error e) →
        ∃ e, run fs arguments = ⟨[], .broken (.loading (.form (.undecodable e)))⟩)) ∧
    ((run fs arguments).ending = .exit 1 ↔ ∃ options result, Completes fs arguments options result 1 ∧
      ∃ finding ∈ result.findings, finding.severity = .error) := by
  refine ⟨fun options path bytes asked named place there => ?_, exit_one_iff fs arguments⟩
  have failing {e : LoadFailure} (failed : (load fs path).2 = .error e) :
      run fs arguments = (fail (.loading e)).precededBy (progress options (load fs path).1) := by
    subst place
    have all := check_of_load_error options named failed
    rw [run_of_check_error asked (congrArg Prod.snd all), all]
  refine ⟨load_eq_error_iff there, fun e failed => ⟨?_, ?_, fun unreported => ?_⟩, fun short refused => ?_⟩
  · rw [failing failed]
    exact (leavesNothing_fail fs _).precededBy fun _ => exists_of_mem_progress
  · rintro fault rfl shown
    rw [failing failed, fail_of_isReported shown]
    rfl
  · rw [failing failed, fail_of_not_isReported unreported, Outcome.precededBy, List.append_nil]
  · obtain ⟨e, unread⟩ := Yaml.load_of_refused short refused purpose
    have failed : load fs path = ([], .error (.form (.undecodable e))) := by
      rw [load_of_file there, unread]
    refine ⟨e, ?_⟩
    rw [failing (congrArg Prod.snd failed), failed]
    simp [fail, Failure.setupMessage?, progress, Outcome.precededBy]

/-- An empty document, which counts as not found, and one with a single byte that is in no character. -/
theorem setup_failure_empty_and_undecodable :
    let fs : FileSystem :=
      ⟨.directory [("empty.yml", .file []), ("bad.yml", .file [0xFF]), ("src", .directory [])], []⟩
    run fs ["--config", "empty.yml"] =
        ⟨[.diagnostic ("Style check failed: " ++ "Config file not found: empty.yml" ++ "\n")], .exit 2⟩ ∧
      (∃ e, run fs ["--config=bad.yml", "-v"] = ⟨[], .broken (.loading (.form (.undecodable e)))⟩) ∧
      (run fs ["--config", "empty.yml"]).ending ≠ .exit 1 := by
  intro fs
  obtain ⟨failures, -⟩ := setup_failure fs ["--config", "empty.yml"]
  obtain ⟨failures', -⟩ := setup_failure fs ["--config=bad.yml", "-v"]
  have asked : Options.ofArguments ["--config", "empty.yml"] = .ok { config := "empty.yml" } := by decide +kernel
  have asked' : Options.ofArguments ["--config=bad.yml", "-v"] = .ok { config := "bad.yml", verbose := true } := by
    decide +kernel
  have located : fs.locate (.ofText "empty.yml") = .ok ["empty.yml"] := by decide +kernel
  have located' : fs.locate (.ofText "bad.yml") = .ok ["bad.yml"] := by decide +kernel
  have there : fs.entry? (.ofText "empty.yml") = .ok (some (.file [])) := FileSystem.entry?_of_located located
  obtain ⟨-, reported, -⟩ := failures _ _ [] asked (by decide) rfl there
  obtain ⟨-, -, unread⟩ := failures' _ _ [0xFF] asked' (by decide) rfl (FileSystem.entry?_of_located located')
  have unfound : load fs (.ofText "empty.yml") = ([], .error (.content (.notFound "empty.yml"))) := by
    rw [load_of_file there, Yaml.load_nil]
    rfl
  have all := (reported _ (congrArg Prod.snd unfound)).2.1 _ rfl nofun
  rw [unfound] at all
  have refused : ∃ e, Utf8.decodeStrict [0xFF] = .error e := ⟨⟨0, 0xFF, 1, .invalidStart⟩, by decide +kernel⟩
  refine ⟨all, unread (by decide) refused, ?_⟩
  rw [all]
  exact nofun

/-- A configuration that is there and cannot be loaded, and of which the run says nothing: a single byte that is in no
    character. -/
theorem undecodable_configuration_escapes :
    let fs : FileSystem := ⟨.directory [("bad.yaml", .file [0xFF]), ("src", .directory [])], []⟩
    let arguments := ["--config", "bad.yaml"]
    Options.ofArguments arguments = .ok { config := "bad.yaml" } ∧
      fs.entry? (.ofText "bad.yaml") = .ok (some (.file [0xFF])) ∧
      (∃ e, (load fs (.ofText "bad.yaml")).2 = .error e) ∧ (run fs arguments).effects = [] ∧
      (run fs arguments).ending ≠ .exit 2 := by
  intro fs arguments
  have asked : Options.ofArguments arguments = .ok { config := "bad.yaml" } := by decide +kernel
  have located : fs.locate (.ofText "bad.yaml") = .ok ["bad.yaml"] := by decide +kernel
  have there : fs.entry? (.ofText "bad.yaml") = .ok (some (.file [0xFF])) := FileSystem.entry?_of_located located
  have refused : ∃ e, Utf8.decodeStrict [0xFF] = .error e := ⟨⟨0, 0xFF, 1, .invalidStart⟩, by decide +kernel⟩
  obtain ⟨e, unread⟩ := Yaml.load_of_refused (by decide) refused purpose
  have failed : load fs (.ofText "bad.yaml") = ([], .error (.form (.undecodable e))) := by
    rw [load_of_file there, unread]
  have all := check_of_load_error { config := "bad.yaml" } (by decide) (congrArg Prod.snd failed)
  have ended := run_of_check_error asked (congrArg Prod.snd all)
  rw [all, failed] at ended
  refine ⟨asked, there, ⟨_, congrArg Prod.snd failed⟩, ?_, ?_⟩
  · rw [ended]
    rfl
  · rw [ended]
    exact nofun

end SolidityLint

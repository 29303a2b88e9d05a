import SolidityLint.Proofs.Files.Writing
import SolidityLint.Proofs.Run.Verdict

/-! What a run leaves behind. Unless it comes to its report, nothing is printed on standard output and no file changes.
    The report is printed before anything is written, and then only the file that the command line names is written,
    and only directories that are missing on the way to it are made. -/

namespace SolidityLint

open CommandLine (Options)
open FileSystem (Leaves)

namespace Run

/-! ### Effects that are only printed -/

theorem filesAfter_precededBy (effects : List Effect) (outcome : Outcome) (fs : FileSystem) :
    (outcome.precededBy effects).filesAfter fs = outcome.filesAfter (effects.foldl Effect.apply fs) :=
  List.foldl_append

theorem standardOutput_precededBy (effects : List Effect) (outcome : Outcome) :
    (outcome.precededBy effects).standardOutput =
      RawText.concat (effects.map Effect.outputText) ++ outcome.standardOutput := by
  refine RawText.points_injective ?_
  simp [Outcome.standardOutput, Outcome.precededBy, RawText.concat]

theorem exists_of_mem_progress {options : Options} {notices : List Notice} {effect : Effect}
    (h : effect ∈ progress options notices) : ∃ text, effect = .diagnostic text := by
  unfold progress at h
  split at h
  · obtain ⟨notice, -, rfl⟩ := List.mem_map.mp h
    exact ⟨_, rfl⟩
  · cases h

theorem foldl_apply_of_diagnostics {effects : List Effect} (h : ∀ effect ∈ effects, ∃ text, effect = .diagnostic text)
    (fs : FileSystem) : effects.foldl Effect.apply fs = fs := by
  induction effects with
  | nil => rfl
  | cons effect rest ih =>
    obtain ⟨⟨text, rfl⟩, others⟩ := List.forall_mem_cons.mp h
    exact ih others

theorem concat_outputText_of_diagnostics {effects : List Effect}
    (h : ∀ effect ∈ effects, ∃ text, effect = .diagnostic text) :
    RawText.concat (effects.map Effect.outputText) = "" := by
  induction effects with
  | nil => rfl
  | cons effect rest ih =>
    obtain ⟨⟨text, rfl⟩, others⟩ := List.forall_mem_cons.mp h
    exact ih others

/-! ### The file that is written -/

section

variable {fs middle after : FileSystem} {out document : String} {code : Nat} {e : FileError}

theorem writeDocument_of_unmade (document : String) (code : Nat)
    (made : fs.ensureDirectories (Path.ofText out).parent = (middle, .error e)) :
    writeDocument fs out document code = ⟨[.ensureDirectories (Path.ofText out).parent], .broken (.access e)⟩ ∧
      (writeDocument fs out document code).filesAfter fs = middle := by
  have all : writeDocument fs out document code =
      ⟨[.ensureDirectories (Path.ofText out).parent], .broken (.access e)⟩ := by
    rw [writeDocument, made]
  rw [all]
  exact ⟨rfl, congrArg Prod.fst made⟩

theorem writeDocument_of_unwritten (code : Nat)
    (made : fs.ensureDirectories (Path.ofText out).parent = (middle, .ok ()))
    (failed : middle.write (.ofText out) (Utf8.encode document.toList) = .error e) :
    writeDocument fs out document code = ⟨[.ensureDirectories (Path.ofText out).parent,
        .writeFile (.ofText out) document], .broken (.access e)⟩ ∧
      (writeDocument fs out document code).filesAfter fs = middle := by
  have all : writeDocument fs out document code = ⟨[.ensureDirectories (Path.ofText out).parent,
      .writeFile (.ofText out) document], .broken (.access e)⟩ := by
    rw [writeDocument, made]
    dsimp only
    rw [failed]
  have ensured : Effect.apply fs (.ensureDirectories (Path.ofText out).parent) = middle := congrArg Prod.fst made
  refine ⟨all, ?_⟩
  rw [all, Outcome.filesAfter, List.foldl_cons, ensured, List.foldl_cons, Effect.apply, failed]
  rfl

theorem writeDocument_of_written (code : Nat)
    (made : fs.ensureDirectories (Path.ofText out).parent = (middle, .ok ()))
    (written : middle.write (.ofText out) (Utf8.encode document.toList) = .ok after) :
    writeDocument fs out document code = ⟨[.ensureDirectories (Path.ofText out).parent,
        .writeFile (.ofText out) document, .output ("\nReport written to " ++ out ++ "\n")], .exit code⟩ ∧
      (writeDocument fs out document code).filesAfter fs = after := by
  have all : writeDocument fs out document code = ⟨[.ensureDirectories (Path.ofText out).parent,
      .writeFile (.ofText out) document, .output ("\nReport written to " ++ out ++ "\n")], .exit code⟩ := by
    rw [writeDocument, made]
    dsimp only
    rw [written]
  have ensured : Effect.apply fs (.ensureDirectories (Path.ofText out).parent) = middle := congrArg Prod.fst made
  refine ⟨all, ?_⟩
  rw [all, Outcome.filesAfter, List.foldl_cons, ensured, List.foldl_cons, Effect.apply, written]
  rfl

end

/-- The directory cannot be made, or the file cannot be written, or both are done. -/
theorem writeDocument_cases (fs : FileSystem) (out document : String) (code : Nat) :
    (∃ middle e, fs.ensureDirectories (Path.ofText out).parent = (middle, .error e) ∧
        (writeDocument fs out document code).ending = .broken (.access e) ∧
        (writeDocument fs out document code).filesAfter fs = middle) ∨
      ∃ middle, fs.ensureDirectories (Path.ofText out).parent = (middle, .ok ()) ∧
        ((∃ e, middle.write (.ofText out) (Utf8.encode document.toList) = .error e ∧
            (writeDocument fs out document code).ending = .broken (.access e) ∧
            (writeDocument fs out document code).filesAfter fs = middle) ∨
          ∃ after, middle.write (.ofText out) (Utf8.encode document.toList) = .ok after ∧
            (writeDocument fs out document code).ending = .exit code ∧
            (writeDocument fs out document code).filesAfter fs = after) := by
  cases made : fs.ensureDirectories (Path.ofText out).parent with
  | mk middle done =>
    cases done with
    | error e =>
      obtain ⟨all, left⟩ := writeDocument_of_unmade document code made
      exact Or.inl ⟨middle, e, rfl, by rw [all], left⟩
    | ok =>
      refine Or.inr ⟨middle, rfl, ?_⟩
      cases written : middle.write (.ofText out) (Utf8.encode document.toList) with
      | error e =>
        obtain ⟨all, left⟩ := writeDocument_of_unwritten code made written
        exact Or.inl ⟨e, rfl, by rw [all], left⟩
      | ok after =>
        obtain ⟨all, left⟩ := writeDocument_of_written code made written
        exact Or.inr ⟨after, rfl, by rw [all], left⟩

theorem leaves_of_writeDocument (fs : FileSystem) (out document : String) (code : Nat) :
    Leaves fs ((writeDocument fs out document code).filesAfter fs) (Path.ofText out)
      (Utf8.encode document.toList) := by
  rcases writeDocument_cases fs out document code with
    ⟨middle, e, made, -, left⟩ | ⟨middle, made, ⟨e, -, -, left⟩ | ⟨after, written, -, left⟩⟩
  · rw [left]
    exact FileSystem.leaves_of_ensureDirectories made _
  · rw [left]
    exact FileSystem.leaves_of_ensureDirectories made _
  · rw [left]
    exact (FileSystem.leaves_of_ensureDirectories made _).write written

/-- A file is kept if the run breaks off. -/
theorem nodeAt?_of_writeDocument_broken {fs : FileSystem} {out document : String} {code : Nat} {failure : Failure}
    (h : (writeDocument fs out document code).ending = .broken failure) {place : List String} {content : List UInt8}
    (there : fs.root.nodeAt? place = some (.file content)) :
    ((writeDocument fs out document code).filesAfter fs).root.nodeAt? place = some (.file content) := by
  rcases writeDocument_cases fs out document code with
    ⟨middle, e, made, -, left⟩ | ⟨middle, made, ⟨e, -, -, left⟩ | ⟨after, -, ended, -⟩⟩
  · rw [left]
    exact (FileSystem.opens_of_ensureDirectories made).file.mpr there
  · rw [left]
    exact (FileSystem.opens_of_ensureDirectories made).file.mpr there
  · rw [ended] at h
    cases h

theorem read_of_writeDocument_exit {fs : FileSystem} {out document : String} {code given : Nat}
    (h : (writeDocument fs out document code).ending = .exit given) :
    ((writeDocument fs out document code).filesAfter fs).read (Path.ofText out) =
      .ok (Utf8.encode document.toList) := by
  rcases writeDocument_cases fs out document code with
    ⟨middle, e, -, ended, -⟩ | ⟨middle, -, ⟨e, -, ended, -⟩ | ⟨after, written, -, left⟩⟩
  · rw [ended] at h
    cases h
  · rw [ended] at h
    cases h
  · rw [left]
    exact FileSystem.read_of_write written

/-! ### The whole run -/

variable {fs : FileSystem} {arguments : List String} {options : Options} {result : CheckResult}

theorem run_of_check_error {e : Failure} (asked : Options.ofArguments arguments = .ok options)
    (failed : (check fs options).2 = .error e) :
    run fs arguments = (fail e).precededBy (progress options (check fs options).1) := by
  rw [run, asked]
  dsimp only
  unfold withOptions
  generalize check fs options = found at failed ⊢
  obtain ⟨notices, _⟩ := found
  obtain rfl := failed
  rfl

/-- Nothing is printed on standard output, and all files are as they were. -/
def LeavesNothing (fs : FileSystem) (outcome : Outcome) : Prop :=
  outcome.standardOutput = "" ∧ outcome.filesAfter fs = fs

theorem leavesNothing_fail (fs : FileSystem) (e : Failure) : LeavesNothing fs (fail e) := by
  unfold fail
  split
  · exact ⟨rfl, rfl⟩
  · exact ⟨rfl, rfl⟩

theorem LeavesNothing.precededBy {outcome : Outcome} (h : LeavesNothing fs outcome) {effects : List Effect}
    (printed : ∀ effect ∈ effects, ∃ text, effect = .diagnostic text) :
    LeavesNothing fs (outcome.precededBy effects) := by
  refine ⟨?_, ?_⟩
  · rw [standardOutput_precededBy, concat_outputText_of_diagnostics printed, h.1]
    rfl
  · rw [filesAfter_precededBy, foldl_apply_of_diagnostics printed, h.2]

theorem leavesNothing_of_check_error {e : Failure} (asked : Options.ofArguments arguments = .ok options)
    (failed : (check fs options).2 = .error e) : LeavesNothing fs (run fs arguments) := by
  rw [run_of_check_error asked failed]
  exact (leavesNothing_fail fs e).precededBy fun _ => exists_of_mem_progress

theorem filesAfter_run_of_checked (asked : Options.ofArguments arguments = .ok options)
    (checked : (check fs options).2 = .ok result) :
    (run fs arguments).filesAfter fs = (deliver fs options result).filesAfter fs ∧
      (run fs arguments).ending = (deliver fs options result).ending := by
  rw [run_of_checked asked checked, filesAfter_precededBy,
    foldl_apply_of_diagnostics fun _ => exists_of_mem_progress]
  exact ⟨rfl, rfl⟩

theorem deliver_of_out_eq_empty (checked : (check fs options).2 = .ok result) (out : options.out = "") :
    deliver fs options result = ⟨deliveries options result, .exit result.exitCode⟩ := by
  have ended : (deliver fs options result).ending = .exit result.exitCode := by
    rw [deliver, payload_of_check checked]
    dsimp only
    rw [if_neg (by simp [out])]
    cases options.format <;> rfl
  exact deliver_of_exit ended

theorem deliver_of_out_ne_empty (checked : (check fs options).2 = .ok result) (out : options.out ≠ "") :
    deliver fs options result = writeDocument fs options.out result.toJson.print result.exitCode := by
  rw [deliver, payload_of_check checked]
  dsimp only
  rw [if_pos (by simpa using out)]

theorem filesAfter_run_of_out_ne_empty (asked : Options.ofArguments arguments = .ok options)
    (checked : (check fs options).2 = .ok result) (out : options.out ≠ "") :
    (run fs arguments).filesAfter fs =
        (writeDocument fs options.out result.toJson.print result.exitCode).filesAfter fs ∧
      (run fs arguments).ending = (writeDocument fs options.out result.toJson.print result.exitCode).ending := by
  rw [← deliver_of_out_ne_empty checked out]
  exact filesAfter_run_of_checked asked checked

/-- Only a command line or a failure that is reported ends a run with the code for that. -/
theorem check_error_of_exit_two (asked : Options.ofArguments arguments = .ok options)
    (ended : (run fs arguments).ending = .exit 2) : ∃ e, (check fs options).2 = .error e := by
  cases checked : (check fs options).2 with
  | error e => exact ⟨e, rfl⟩
  | ok result =>
    rw [(filesAfter_run_of_checked asked checked).2] at ended
    have code := deliver_of_exit ended
    rw [code] at ended
    have two : result.exitCode = 2 := Ending.exit.inj ended
    have := result.exitCode_le_one
    omega

end Run

open Run

/-- A run that ends with a faulty command line, with a failure to set it up, or with any other failure of its check
    prints nothing on standard output and leaves all files as they are. A run that makes its check prints the whole
    report before it writes anything. Without a file to write it leaves all files as they are; else it makes only
    directories on the way to that file and writes only that file, whose content is then the document, and if it breaks
    off all files that were there are kept. -/
theorem run_frame (fs : FileSystem) (arguments : List String) :
    let outcome := run fs arguments
    let after := outcome.filesAfter fs
    ((∃ e, Options.ofArguments arguments = .error (.misuse e)) ∨ outcome.ending = .exit 2 ∨
        (∃ options e, Options.ofArguments arguments = .ok options ∧ (check fs options).2 = .error e) →
      outcome.standardOutput = "" ∧ after = fs) ∧
    ∀ options result, Options.ofArguments arguments = .ok options → (check fs options).2 = .ok result →
      (∃ before rest, outcome.effects = before ++ .output (result.report ++ "\n") :: rest ∧
        ∀ effect ∈ before, ∃ text, effect = .diagnostic text) ∧
      (options.out = "" → after = fs) ∧
      (options.out ≠ "" →
        ∃ document, payload result = .ok document ∧
        Leaves fs after (.ofText options.out) (Utf8.encode document.toList) ∧
        (∀ code, outcome.ending = .exit code →
          after.read (.ofText options.out) = .ok (Utf8.encode document.toList)) ∧
        ∀ failure, outcome.ending = .broken failure → ∀ place content,
          fs.root.nodeAt? place = some (.file content) → after.root.nodeAt? place = some (.file content)) := by
  intro outcome after
  have misused {e} (asked : Options.ofArguments arguments = .error (.misuse e)) : LeavesNothing fs outcome := by
    dsimp only [outcome]
    rw [run, asked]
    exact ⟨rfl, rfl⟩
  refine ⟨?_, fun options result asked checked => ?_⟩
  · rintro (⟨e, asked⟩ | ended | ⟨options, e, asked, failed⟩)
    · exact misused asked
    · cases asked : Options.ofArguments arguments with
      | ok options =>
        obtain ⟨e, failed⟩ := check_error_of_exit_two asked ended
        exact leavesNothing_of_check_error asked failed
      | error halt =>
        cases halt with
        | misuse e => exact misused asked
        | help =>
          dsimp only [outcome] at ended
          rw [run, asked] at ended
          cases ended
    · exact leavesNothing_of_check_error asked failed
  · obtain ⟨left, ended⟩ := filesAfter_run_of_checked asked checked
    refine ⟨⟨progress options (check fs options).1, (deliver fs options result).effects, ?_,
      fun _ => exists_of_mem_progress⟩, fun out => ?_, fun out => ?_⟩
    · dsimp only [outcome]
      rw [run_of_checked asked checked]
      rfl
    · dsimp only [after, outcome]
      rw [left, deliver_of_out_eq_empty checked out, deliveries, if_neg (not_not_intro out)]
      cases options.format <;> rfl
    · rw [deliver_of_out_ne_empty checked out] at left ended
      dsimp only [after, outcome]
      rw [left, ended]
      exact ⟨result.toJson.print, payload_of_check checked, leaves_of_writeDocument fs options.out _ result.exitCode,
        fun _ => read_of_writeDocument_exit, fun _ broken _ _ => nodeAt?_of_writeDocument_broken broken⟩

/-- The code with which a run ended by itself. -/
def Ending.code? : Ending → Option Nat
  | .exit code => some code
  | .broken _ => none

theorem Ending.code?_eq_some_iff {ending : Ending} {code : Nat} : ending.code? = some code ↔ ending = .exit code := by
  cases ending <;> simp [code?]

/-- A report in a directory that is not there yet. -/
theorem run_frame_new_directory :
    let fs : FileSystem :=
      ⟨.directory [("src", .directory [("a.sol", .file (Utf8.encode "contract lower {}".toList))])], []⟩
    let options : Options := { out := "new/x.json" }
    let result := checkSources [⟨"src/a.sol", "contract lower {}"⟩] .builtin {}
    let outcome := run fs ["--out", "new/x.json"]
    Options.ofArguments ["--out", "new/x.json"] = .ok options ∧ (check fs options).2 = .ok result ∧
      outcome.ending = .exit 1 ∧ ∃ document, payload result = .ok document ∧
      Leaves fs (outcome.filesAfter fs) (.ofText "new/x.json") (Utf8.encode document.toList) ∧
      (outcome.filesAfter fs).read (.ofText "new/x.json") = .ok (Utf8.encode document.toList) := by
  intro fs options result outcome
  have asked : Options.ofArguments ["--out", "new/x.json"] = .ok options := by decide +kernel
  have checked : (check fs options).2 = .ok result := eq_ok_of_toOption (by decide +kernel)
  have ended : outcome.ending = .exit 1 := Ending.code?_eq_some_iff.mp (by decide +kernel)
  obtain ⟨-, whole⟩ := run_frame fs ["--out", "new/x.json"]
  obtain ⟨-, -, written⟩ := whole options result asked checked
  obtain ⟨document, told, leaves, read, -⟩ := written (by decide)
  exact ⟨asked, checked, ended, document, told, leaves, read 1 ended⟩

end SolidityLint

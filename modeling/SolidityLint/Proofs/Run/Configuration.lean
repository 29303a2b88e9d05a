import SolidityLint.Proofs.CommandLine.Choices
import SolidityLint.Proofs.Run.Frame

/-! What a command line makes of a run. Rules and severities come from the configuration that it names last, and the
    contracts and the source directory that it names take the place of those in it. A file that cannot be read ends the
    run, whatever else is named. -/

namespace SolidityLint

open CommandLine (Options Use Word Group valuesOf lastOr Format)

namespace Run

/-- The configuration that uses of options come to: the one in the last file named, or else the default one, with the
    contracts and the source directory of the command line in place of its own if there are any. -/
def effective (fs : FileSystem) (uses : List Use) : Except LoadFailure CheckerConfig :=
  let file := lastOr "" (valuesOf .config uses)
  let names := (valuesOf .contract uses).map (·.getD "[]")
  let directory := lastOr "" (valuesOf .sourceDir uses)
  (if file = "" then .ok {} else (CheckerConfig.load fs (.ofText file)).2).map fun config =>
    { rules := config.rules
      severities := config.severities
      contractNames := if names = [] then config.contractNames else names.map .ofString
      sourceDir := if directory = "" then config.sourceDir else directory }

/-- A check with a configuration, and what follows it. -/
def checking (fs : FileSystem) (options : Options) : Except LoadFailure CheckerConfig → Outcome
  | .error e => fail (.loading e)
  | .ok config => match (checkFiles fs config).2 with
    | .error e => fail e
    | .ok result => (deliver fs options result).precededBy [.output (result.report ++ "\n")]

/-- Two runs that end alike, print the same on standard output and leave the same files. -/
structure SameOutcome (fs : FileSystem) (one other : Outcome) : Prop where
  ending : one.ending = other.ending
  output : one.standardOutput = other.standardOutput
  files : one.filesAfter fs = other.filesAfter fs

theorem sameOutcome_precededBy_progress (fs : FileSystem) (options : Options) (notices : List Notice)
    (outcome : Outcome) : SameOutcome fs (outcome.precededBy (progress options notices)) outcome where
  ending := rfl
  output := by
    rw [standardOutput_precededBy, concat_outputText_of_diagnostics fun _ => exists_of_mem_progress]
    rfl
  files := by rw [filesAfter_precededBy, foldl_apply_of_diagnostics fun _ => exists_of_mem_progress]

theorem code_of_fail {e : Failure} {code : Nat} (h : (fail e).ending = .exit code) : code = 2 := by
  unfold fail at h
  split at h
  · exact (Ending.exit.inj h).symm
  · cases h

section

variable {fs : FileSystem} {options : Options} {uses : List Use}

theorem override_of_chosen (chosen : Options.chosen {} uses = .ok options) (config : CheckerConfig) :
    let names := (valuesOf .contract uses).map (·.getD "[]")
    let directory := lastOr "" (valuesOf .sourceDir uses)
    config.override options =
      { rules := config.rules
        severities := config.severities
        contractNames := if names = [] then config.contractNames else names.map .ofString
        sourceDir := if directory = "" then config.sourceDir else directory } := by
  rw [Options.chosen_eq_ok chosen, CheckerConfig.override]
  simp only [List.nil_append, List.isEmpty_iff, String.isEmpty_iff]

theorem settle_of_chosen (chosen : Options.chosen {} uses = .ok options) :
    (settle fs options).2 = (effective fs uses).mapError .loading := by
  have file : options.config = lastOr "" (valuesOf .config uses) := by rw [Options.chosen_eq_ok chosen]
  have settled (loaded : Except LoadFailure CheckerConfig) :
      (loaded.mapError Failure.loading).map (·.override options) =
        (loaded.map (·.override options)).mapError .loading := by
    cases loaded <;> rfl
  unfold settle effective
  simp only [← override_of_chosen chosen, ← file, ← settled]
  by_cases none : options.config = ""
  · simp [none]
  · simp [none]

/-- A run with the choices that its options come to. -/
theorem run_of_chosen {arguments : List String} (asked : Options.ofArguments arguments = .ok options)
    (chosen : Options.chosen {} uses = .ok options) :
    SameOutcome fs (run fs arguments) (checking fs options (effective fs uses)) := by
  have made := check_eq_bind fs options
  rw [settle_of_chosen chosen] at made
  cases settled : effective fs uses with
  | error e =>
    rw [settled] at made
    rw [run_of_check_error asked made]
    exact sameOutcome_precededBy_progress fs options _ _
  | ok config =>
    rw [settled] at made
    have made : (check fs options).2 = (checkFiles fs config).2 := made
    cases checked : (checkFiles fs config).2 with
    | error e =>
      rw [run_of_check_error asked (made.trans checked), checking, checked]
      exact sameOutcome_precededBy_progress fs options _ _
    | ok result =>
      rw [run_of_checked asked (made.trans checked), checking, checked]
      exact sameOutcome_precededBy_progress fs options _ _

end

end Run

open Run

/-- What an accepted command line does is what a check does with the configuration that its options come to, each by
    its own values: rules and severities of the last file named or the default ones, all contracts that are named or
    else those of the configuration, and the last source directory that is not empty or else that of the configuration.
    A file that cannot be loaded ends the run before that, whatever else is named. Complete options may change places
    and spellings as long as each keeps its own values in order. -/
theorem effective_configuration (fs : FileSystem) :
    (∀ arguments options, Options.ofArguments arguments = .ok options →
      ∃ words uses, Word.ofStrings arguments = .ok words ∧ Word.Spell words uses ∧
        options.out = lastOr "" (valuesOf .out uses) ∧
        options.format = ((valuesOf .format uses).getLast?.bind Format.ofValue?).getD .text ∧
        SameOutcome fs (run fs arguments) (checking fs options (effective fs uses)) ∧
        ∀ e, lastOr "" (valuesOf .config uses) ≠ "" →
          (CheckerConfig.load fs (.ofText (lastOr "" (valuesOf .config uses)))).2 = .error e →
            SameOutcome fs (run fs arguments) (fail (.loading e)) ∧ LeavesNothing fs (run fs arguments) ∧
            ∀ code, (run fs arguments).ending = .exit code → code = 2) ∧
    ∀ groups others, Group.Rearranges groups others →
      run fs (groups.map Group.word) = run fs (others.map Group.word) := by
  refine ⟨fun arguments options asked => ?_, fun groups others rearranged => ?_⟩
  · obtain ⟨words, uses, read, spell, chosen⟩ := Options.exists_of_ofArguments asked
    have all := Options.chosen_eq_ok chosen
    have same : SameOutcome fs (run fs arguments) (checking fs options (effective fs uses)) :=
      run_of_chosen asked chosen
    refine ⟨words, uses, read, spell, by rw [all], by rw [all], same, fun e named failed => ?_⟩
    have unloaded : effective fs uses = .error e := by
      simp only [effective]
      rw [if_neg named, failed]
      rfl
    rw [unloaded] at same
    have failing : SameOutcome fs (run fs arguments) (fail (.loading e)) := same
    obtain ⟨silent, kept⟩ := leavesNothing_fail fs (.loading e)
    refine ⟨failing, ⟨failing.output.trans silent, failing.files.trans kept⟩, fun code ended => ?_⟩
    rw [failing.ending] at ended
    exact code_of_fail ended
  · rw [run, run, rearranged.ofArguments_eq]

/-- A configuration that is not there, though contracts and source directory are named, and four options in two
    orders. -/
theorem effective_configuration_missing :
    let fs : FileSystem := ⟨.directory [("lib", .directory [("A.sol", .file [])])], []⟩
    let arguments := ["--config=none.yml", "-cA", "--source-dir", "lib"]
    (∃ options, Options.ofArguments arguments = .ok options) ∧
      LeavesNothing fs (run fs arguments) ∧ (run fs arguments).ending = .exit 2 ∧
      run fs ["--out=x.json", "--contract=B", "--verbose", "--contract=A"] =
        run fs ["--contract=B", "--contract=A", "--verbose", "--output=x.json"] := by
  intro fs arguments
  obtain ⟨accepted, rearranged⟩ := effective_configuration fs
  have asked : Options.ofArguments arguments =
      .ok { config := "none.yml", contracts := ["A"], sourceDir := "lib" } := by decide +kernel
  obtain ⟨words, uses, read, spell, -, -, -, failing⟩ := accepted arguments _ asked
  have known : Word.ofStrings arguments = .ok [.uses [.value .config (some "none.yml")],
      .uses [.value .contract (some "A")], .wanting [] .sourceDir, .operand "lib"] := by decide +kernel
  obtain rfl := Except.ok.inj (read.symm.trans known)
  obtain rfl := spell.unique (.uses _ (.uses _ (.wanting _ _ _ .nil)))
  have unfound : (CheckerConfig.load fs (.ofText "none.yml")).2 = .error (.content (.notFound "none.yml")) := by
    have absent : fs.exists? (.ofText "none.yml") = .ok false := by decide +kernel
    rw [CheckerConfig.load, CheckerConfig.readDocument, absent]
    rfl
  obtain ⟨same, silent, -⟩ := failing _ (by decide) unfound
  have out : ("--out", .parameter .out) ∈ CommandLine.spellings := by decide
  have output : ("--output", .parameter .out) ∈ CommandLine.spellings := by decide
  have contract : ("--contract", .parameter .contract) ∈ CommandLine.spellings := by decide
  have moved := rearranged
    [.assignment _ _ "x.json" out (by decide), .assignment _ _ "B" contract (by decide), .verbose,
      .assignment _ _ "A" contract (by decide)]
    [.assignment _ _ "B" contract (by decide), .assignment _ _ "A" contract (by decide), .verbose,
      .assignment _ _ "x.json" output (by decide)]
    (fun flag => by rcases flag with (_ | _) | (_ | _ | _ | _ | _) <;> rfl)
  exact ⟨⟨_, asked⟩, silent, same.ending, moved⟩

end SolidityLint

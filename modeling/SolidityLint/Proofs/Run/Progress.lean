import Mathlib.Algebra.BigOperators.Group.List.Basic
import Mathlib.Algebra.GroupWithZero.Nat
import SolidityLint.Proofs.Check.Accumulation
import SolidityLint.Proofs.Run.Configuration

/-! Verbose runs. That a run is verbose is a choice of its own: no other choice depends on it, and neither does the
    check, nor what follows it. What such a run tells about the check of files adds up to the findings of the check,
    file by file, since every category tells how much it adds to the result. -/

namespace SolidityLint

namespace CommandLine.Options

/-! ### A choice of its own -/

/-- The same choices, for a verbose run. -/
def verbosely (options : Options) : Options :=
  { options with verbose := true }

theorem set_verbosely (options : Options) (parameter : Parameter) (value : Option String) :
    options.verbosely.set parameter value = (options.set parameter value).map verbosely := by
  cases parameter with
  | format =>
    cases value with
    | none => rfl
    | some name =>
      simp only [set]
      cases Format.ofName? name <;> rfl
  | _ => rfl

theorem use_verbosely (options : Options) (use : Use) :
    options.verbosely.use use = (options.use use).map verbosely := by
  cases use with
  | switch s => cases s <;> rfl
  | value parameter value => exact set_verbosely options parameter value

theorem useAll_verbosely (options : Options) (uses : List Use) :
    options.verbosely.useAll uses = (options.useAll uses).map verbosely := by
  induction uses generalizing options with
  | nil => rfl
  | cons use rest ih =>
    rw [useAll, useAll, List.foldlM_cons, List.foldlM_cons, use_verbosely]
    cases options.use use with
    | error e => rfl
    | ok next => exact ih next

theorem readWords_verbosely (extras : List String) (options : Options) (words : List Word) :
    readWords extras options.verbosely words = (readWords extras options words).map verbosely := by
  fun_induction readWords extras options words with
  | case1 extras options none => rw [readWords, if_pos none]; rfl
  | case2 extras options some => rw [readWords, if_neg some]; rfl
  | case3 extras options text rest ih => rw [readWords, ih]
  | case4 extras options text rest ih => rw [readWords, ih]
  | case5 extras options rest ih => rw [readWords, ih]
  | case6 extras options uses rest ih =>
    rw [readWords, useAll_verbosely]
    cases options.useAll uses with
    | error e => rfl
    | ok next => exact ih next
  | case7 extras options uses parameter value rest ih =>
    rw [readWords, useAll_verbosely]
    cases options.useAll (uses ++ [.value parameter (some value)]) with
    | error e => rfl
    | ok next => exact ih next
  | case8 extras options uses parameter rest unfollowed =>
    rw [readWords]
    · rfl
    · exact unfollowed
  | case9 => rfl

/-- The switch for messages in front of a command line changes that choice alone; help and faults stay what they
    are. -/
theorem ofArguments_verbose (arguments : List String) :
    ofArguments ("--verbose" :: arguments) = (ofArguments arguments).map verbosely := by
  have first : Word.ofString "--verbose" = .ok (.uses [.switch .verbose]) := Group.verbose.ofString_word
  rw [ofArguments, ofArguments, Word.ofStrings, if_neg (by decide), first]
  cases Word.ofStrings arguments with
  | error e => rfl
  | ok words => exact readWords_verbosely [] {} words

end CommandLine.Options

open CommandLine (Options)

/-! ### What the check of files tells -/

namespace Notice

/-- Whether a message is about the check of a file. -/
def isOfCheck : Notice → Bool
  | .checking _ | .categoryDone .. => true
  | _ => false

/-- How many findings a message tells of. -/
def emitted : Notice → Nat
  | .categoryDone _ _ findings => findings
  | _ => 0

theorem emitted_eq_zero {notice : Notice} (h : notice.isOfCheck = false) : notice.emitted = 0 := by
  cases notice <;> first | rfl | cases h

end Notice

/-- What is told of the check of a file: that it begins, and for every category how many findings it has there. -/
def Source.notices (source : Source) (rules : RuleConfiguration) (severities : SeverityMap) : List Notice :=
  .checking source.path :: Category.all.map fun category =>
    .categoryDone source.path category (source.findingsOf rules severities category).length

section

variable (source : Source) (rules : RuleConfiguration) (severities : SeverityMap)

/-- What a category adds to a result is what it finds by itself. -/
theorem CheckContext.passNotices_eq (result : CheckResult) (categories : List Category) :
    CheckContext.passNotices ⟨source, rules, severities⟩ result categories = categories.map fun category =>
      .categoryDone source.path category (source.findingsOf rules severities category).length := by
  induction categories generalizing result with
  | nil => rfl
  | cons category rest ih =>
    rw [passNotices, ih, category.pass_eq, List.length_append, Nat.add_sub_cancel_left, List.map_cons]

theorem checkNotices_eq (result : CheckResult) (sources : List Source) :
    checkNotices rules severities result sources = sources.flatMap (·.notices rules severities) := by
  induction sources generalizing result with
  | nil => rfl
  | cons source rest ih =>
    rw [checkNotices, ih, CheckContext.notices, CheckContext.passNotices_eq, List.flatMap_cons, Source.notices]

theorem Source.length_findings :
    (source.findings rules severities).length =
      (Category.all.map fun category => (source.findingsOf rules severities category).length).sum :=
  List.length_flatMap

theorem Source.sum_emitted_notices :
    ((source.notices rules severities).map (·.emitted)).sum = (source.findings rules severities).length := by
  rw [Source.notices, source.length_findings, List.map_cons, List.sum_cons, List.map_map]
  exact Nat.zero_add _

theorem sum_emitted_flatMap_notices (sources : List Source) :
    ((sources.flatMap (·.notices rules severities)).map (·.emitted)).sum =
      (checkSources sources rules severities).findings.length := by
  rw [findings_checkSources]
  induction sources with
  | nil => rfl
  | cons source rest ih =>
    rw [List.flatMap_cons, List.map_append, List.sum_append, ih, source.sum_emitted_notices, List.flatMap_cons,
      List.length_append]

theorem Source.isOfCheck_of_mem_notices {notice : Notice} (h : notice ∈ source.notices rules severities) :
    notice.isOfCheck = true := by
  rcases List.mem_cons.mp h with rfl | h
  · rfl
  · obtain ⟨category, -, rfl⟩ := List.mem_map.mp h
    rfl

end

/-! ### What the reading of a configuration tells -/

theorem Category.isOfCheck_of_mem_notices {category : Category} {value : Value} :
    ∀ notice ∈ category.notices value, notice.isOfCheck = false := by
  have each (entries : List (Value × Value)) :
      ∀ notice ∈ category.entryNotices entries, notice.isOfCheck = false := by
    fun_induction entryNotices category entries with
    | case1 | case4 => exact nofun
    | case2 key value rest foreign ih => exact List.forall_mem_cons.mpr ⟨rfl, ih⟩
    | case3 key value rest rule own setting accepted ih => exact ih
  unfold notices
  split
  · exact each _
  · exact nofun

theorem RuleConfiguration.isOfCheck_of_mem_notices {value : Value} :
    ∀ notice ∈ notices value, notice.isOfCheck = false := by
  have each (entries : List (Value × Value)) : ∀ notice ∈ entryNotices entries, notice.isOfCheck = false := by
    fun_induction entryNotices entries with
    | case1 => exact nofun
    | case2 key value rest foreign ih => exact List.forall_mem_cons.mpr ⟨rfl, ih⟩
    | case3 key value rest category own ih =>
      refine List.forall_mem_append.mpr ⟨Category.isOfCheck_of_mem_notices, ?_⟩
      split
      · exact ih
      · exact nofun
  unfold notices
  split
  · exact each _
  · exact nofun

theorem CheckerConfig.isOfCheck_of_mem_notices {path : RawText} {value : Value} :
    ∀ notice ∈ notices path value, notice.isOfCheck = false := by
  cases value with
  | mapping entries =>
    refine List.forall_mem_append.mpr ⟨?_, ?_⟩
    · split
      · exact RuleConfiguration.isOfCheck_of_mem_notices
      · exact nofun
    · split
      · exact List.forall_mem_singleton.mpr rfl
      · exact nofun
  | _ => exact nofun

namespace Run

variable {fs : FileSystem} {options : Options} {arguments : List String}

theorem isOfCheck_of_mem_settle : ∀ notice ∈ (settle fs options).1, notice.isOfCheck = false := by
  unfold settle CheckerConfig.load
  by_cases none : options.config.isEmpty
  · simp [none]
  · simp only [if_neg none]
    split
    · exact nofun
    · exact CheckerConfig.isOfCheck_of_mem_notices

/-! ### Two runs, one of them verbose -/

theorem SameOutcome.symm {one other : Outcome} (h : SameOutcome fs one other) : SameOutcome fs other one :=
  ⟨h.ending.symm, h.output.symm, h.files.symm⟩

theorem SameOutcome.trans {one other third : Outcome} (h : SameOutcome fs one other)
    (h' : SameOutcome fs other third) : SameOutcome fs one third :=
  ⟨h.ending.trans h'.ending, h.output.trans h'.output, h.files.trans h'.files⟩

theorem withOptions_verbosely (fs : FileSystem) (options : Options) :
    SameOutcome fs (withOptions fs options.verbosely) (withOptions fs options) := by
  have told := sameOutcome_precededBy_progress fs options.verbosely (check fs options).1
  have untold := sameOutcome_precededBy_progress fs options (check fs options).1
  exact (told _).trans (untold _).symm

theorem run_verbose (fs : FileSystem) (arguments : List String) :
    SameOutcome fs (run fs ("--verbose" :: arguments)) (run fs arguments) := by
  rw [run, run, Options.ofArguments_verbose]
  cases Options.ofArguments arguments with
  | error halt => cases halt <;> exact ⟨rfl, rfl, rfl⟩
  | ok options => exact withOptions_verbosely fs options

/-! ### A verbose run that makes its check -/

theorem notices_of_checkFiles {config : CheckerConfig} {files : List Path} {sources : List Source}
    (found : discover fs (.ofText config.sourceDir) config.contractNames = .ok files)
    (loaded : loadSources fs (.ofText config.sourceDir) files = (sources, none)) :
    (checkFiles fs config).1 =
      .contractsFound files.length :: sources.flatMap (·.notices config.rules config.severities) := by
  unfold checkFiles
  dsimp only
  rw [found]
  dsimp only
  rw [loaded, checkNotices_eq]

theorem notices_of_check {config : CheckerConfig} (settled : (settle fs options).2 = .ok config) :
    (check fs options).1 = (settle fs options).1 ++ (checkFiles fs config).1 := by
  unfold check
  generalize settle fs options = made at settled
  obtain ⟨notices, _⟩ := made
  obtain rfl := settled
  rfl

theorem effects_of_verbose_check {result : CheckResult} (asked : Options.ofArguments arguments = .ok options)
    (verbose : options.verbose = true) (checked : (check fs options).2 = .ok result) :
    ∃ rest, (run fs arguments).effects =
        (check fs options).1.map (fun notice => .diagnostic (notice.line ++ "\n")) ++
          .output (result.report ++ "\n") :: rest ∧
      ∀ effect ∈ rest, ∀ text, effect ≠ .diagnostic text := by
  refine ⟨(deliver fs options result).effects, ?_, ?_⟩
  · rw [run_of_checked asked checked, progress, if_pos verbose]
    rfl
  · by_cases out : options.out = ""
    · rw [deliver_of_out_eq_empty checked out, deliveries, if_neg (not_not_intro out)]
      cases options.format <;> simp
    · rw [deliver_of_out_ne_empty checked out]
      unfold writeDocument
      dsimp only
      split
      · simp
      · split <;> simp

end Run

open Run

/-- A run with the switch for messages in front ends like the run without it, prints the same on standard output and
    leaves the same files. A verbose run that makes its check prints its messages on standard error, and nothing else
    there. For each file in order they tell that its check begins and then, for the four categories in order, how many
    findings each has; nothing else is told of files. The numbers of a file add up to the findings that it adds to
    those of the files before it, and all numbers to all findings. -/
theorem verbose_only_tells (fs : FileSystem) (arguments : List String) :
    SameOutcome fs (run fs ("--verbose" :: arguments)) (run fs arguments) ∧
    ∀ options result, Options.ofArguments arguments = .ok options → options.verbose = true →
      (check fs options).2 = .ok result →
      let told := (check fs options).1
      (∃ rest, (run fs arguments).effects = told.map (fun notice => .diagnostic (notice.line ++ "\n")) ++
          .output (result.report ++ "\n") :: rest ∧
        ∀ effect ∈ rest, ∀ text, effect ≠ .diagnostic text) ∧
      (told.map (·.emitted)).sum = result.findings.length ∧
      ∃ config files sources, (settle fs options).2 = .ok config ∧
        discover fs (.ofText config.sourceDir) config.contractNames = .ok files ∧
        loadSources fs (.ofText config.sourceDir) files = (sources, none) ∧
        result = checkSources sources config.rules config.severities ∧
        told.filter (·.isOfCheck) = sources.flatMap (fun source =>
          .checking source.path :: [Category.header, .imports, .naming, .layout].map fun category =>
            .categoryDone source.path category
              (source.findingsOf config.rules config.severities category).length) ∧
        ∀ before source after, sources = before ++ source :: after →
          (checkSources (before ++ [source]) config.rules config.severities).findings.length =
            (checkSources before config.rules config.severities).findings.length +
              ([Category.header, .imports, .naming, .layout].map fun category =>
                (source.findingsOf config.rules config.severities category).length).sum := by
  refine ⟨run_verbose fs arguments, fun options result asked verbose checked => ?_⟩
  obtain ⟨config, settled, fromFiles⟩ := check_eq_ok_iff.mp checked
  obtain ⟨files, sources, found, loaded, rfl, -⟩ := checkFiles_eq_ok_iff.mp fromFiles
  have all := notices_of_check settled
  rw [notices_of_checkFiles found loaded] at all
  refine ⟨effects_of_verbose_check asked verbose checked, ?_, config, files, sources, settled, found, loaded, rfl, ?_,
    fun before source after _ => ?_⟩
  · have before : ((settle fs options).1.map (·.emitted)).sum = 0 := by
      refine List.sum_eq_zero (List.forall_mem_map.mpr fun notice hn => ?_)
      exact Notice.emitted_eq_zero (isOfCheck_of_mem_settle notice hn)
    rw [all, List.map_append, List.sum_append, before, List.map_cons, List.sum_cons, sum_emitted_flatMap_notices]
    simp [Notice.emitted]
  · have before : (settle fs options).1.filter (·.isOfCheck) = [] :=
      List.filter_eq_nil_iff.mpr fun notice hn => by simp [isOfCheck_of_mem_settle notice hn]
    rw [all, List.filter_append, before, List.filter_cons_of_neg (by simp [Notice.isOfCheck]), List.nil_append]
    refine List.filter_eq_self.mpr fun notice hn => ?_
    obtain ⟨source, -, hn⟩ := List.mem_flatMap.mp hn
    exact source.isOfCheck_of_mem_notices _ _ hn
  · rw [checkSources_append, CheckResult.findings_append, List.length_append, findings_checkSources [source],
      List.flatMap_singleton, source.length_findings]
    rfl

/-- A file with errors, which is checked twice, and between them one without. -/
theorem verbose_only_tells_twice :
    let one := "contract lower {}"
    let two := "// SPDX-License-Identifier: MIT\n"
    let fs : FileSystem :=
      ⟨.directory [("src", .directory [("a.sol", .file (Utf8.encode one.toList)),
        ("b.sol", .file (Utf8.encode two.toList))])], []⟩
    let names := ["-ca", "-cb", "-ca"]
    let options : Options := { contracts := ["a", "b", "a"], verbose := true }
    let result := checkSources [⟨"src/a.sol", one⟩, ⟨"src/b.sol", two⟩, ⟨"src/a.sol", one⟩] .builtin {}
    SameOutcome fs (run fs ("--verbose" :: names)) (run fs names) ∧
      Options.ofArguments ("--verbose" :: names) = .ok options ∧ (check fs options).2 = .ok result ∧
      ((check fs options).1.map (·.emitted)).sum = 4 ∧
      ∃ rest, (run fs ("--verbose" :: names)).effects =
        (check fs options).1.map (fun notice => .diagnostic (notice.line ++ "\n")) ++
          .output (result.report ++ "\n") :: rest := by
  intro one two fs names options result
  have asked : Options.ofArguments ("--verbose" :: names) = .ok options := by decide +kernel
  have checked : (check fs options).2 = .ok result := eq_ok_of_toOption (by decide +kernel)
  obtain ⟨same, -⟩ := verbose_only_tells fs names
  obtain ⟨-, adds⟩ := verbose_only_tells fs ("--verbose" :: names)
  obtain ⟨⟨rest, effects, -⟩, sum, -⟩ := adds options result asked rfl checked
  have all : result.findings.length = 4 := by decide +kernel
  exact ⟨same, asked, checked, sum.trans all, rest, effects⟩

end SolidityLint

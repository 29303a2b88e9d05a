import SolidityLint.Proofs.CommandLine.Choices
import SolidityLint.Proofs.Files.Named
import SolidityLint.Proofs.Files.Repeating
import SolidityLint.Proofs.Run.Frame

/-! Runs that are repeated. What a run writes is nothing that a run reads, so the second run makes the same check, prints
    the same, and finds its directories and its file as the first run left them. Only where the first run could not
    make all directories on the way to its file, the second one may be told another reason. And where the first run made
    something below the source directory whose path from there is too long, the second one comes to no check. -/

namespace SolidityLint

open CommandLine (Options)
open FileSystem (Leaves SameFile)

namespace Run

variable {before after : FileSystem} {options : Options} {content : List UInt8}

/-! ### The same configuration -/

theorem readDocument_of_sameFile {path : Path} (same : SameFile before after path) :
    CheckerConfig.readDocument after path = CheckerConfig.readDocument before path := by
  obtain ⟨bytes, read, read'⟩ := same.read
  rw [CheckerConfig.readDocument, CheckerConfig.readDocument, same.exists?.1, same.exists?.2, read, read']

/-- A configuration that is read is that of a file. -/
theorem exists_file_of_load {fs : FileSystem} {path : Path} {config : CheckerConfig}
    (loaded : (CheckerConfig.load fs path).2 = .ok config) :
    ∃ place bytes, fs.locate path = .ok place ∧ fs.root.nodeAt? place = some (.file bytes) := by
  have read : ∃ bytes, fs.read path = .ok bytes := by
    cases read : fs.read path with
    | ok bytes => exact ⟨bytes, rfl⟩
    | error e =>
      unfold CheckerConfig.load CheckerConfig.readDocument at loaded
      rw [read] at loaded
      cases there : fs.exists? path with
      | error e => rw [there] at loaded; cases loaded
      | ok isThere =>
        rw [there] at loaded
        cases isThere with
        | true => cases loaded
        | false => cases loaded
  obtain ⟨bytes, read⟩ := read
  obtain ⟨place, located, there⟩ := FileSystem.read_eq_ok_iff.mp read
  exact ⟨place, bytes, located, there⟩

/-- The file that a run writes is none of those that it reads. -/
structure Apart (fs : FileSystem) (options : Options) (config : CheckerConfig) : Prop where
  configuration : options.config ≠ "" → ∀ place, fs.locate (.ofText options.out) = .ok place →
    fs.locate (.ofText options.config) ≠ .ok place
  sources : Discovery.Apart fs (.ofText options.out) (.ofText config.sourceDir) config.contractNames

theorem settle_of_leaves (leaves : before.Leaves after (.ofText options.out) content) {config : CheckerConfig}
    (apart : Apart after options config) (settled : (settle before options).2 = .ok config) :
    settle after options = settle before options := by
  unfold settle at settled ⊢
  by_cases given : options.config = ""
  · rw [if_pos (by simpa using given), if_pos (by simpa using given)]
  · rw [if_neg (by simpa using given)] at settled
    rw [if_neg (by simpa using given), if_neg (by simpa using given)]
    have loaded : ∃ read, (CheckerConfig.load before (.ofText options.config)).2 = .ok read := by
      cases loaded : (CheckerConfig.load before (.ofText options.config)).2 with
      | ok read => exact ⟨read, rfl⟩
      | error e =>
        dsimp only at settled
        rw [loaded] at settled
        cases settled
    obtain ⟨read, loaded⟩ := loaded
    obtain ⟨place, bytes, located, there⟩ := exists_file_of_load loaded
    have same : SameFile before after (.ofText options.config) := leaves.sameFile located there fun written =>
      apart.configuration given place written (leaves.grows.locate located)
    rw [CheckerConfig.load, CheckerConfig.load, readDocument_of_sameFile same]

/-! ### The same sources -/

theorem loadSource_of_sameFile {directory file : Path} (same : SameFile before after file) :
    loadSource after directory file = loadSource before directory file := by
  obtain ⟨bytes, read, read'⟩ := same.read
  unfold loadSource Source.load
  rw [same.exists?.1, same.exists?.2, read, read']

theorem loadSources_of_sameFile {directory : Path} {files : List Path} {sources : List Source}
    (same : ∀ file ∈ files, SameFile before after file)
    (loaded : loadSources before directory files = (sources, none)) :
    loadSources after directory files = (sources, none) := by
  induction files generalizing sources with
  | nil => exact loaded
  | cons file rest ih =>
    obtain ⟨own, others⟩ := List.forall_mem_cons.mp same
    unfold loadSources at loaded ⊢
    cases first : loadSource before directory file with
    | error e =>
      rw [first] at loaded
      cases (Prod.mk.inj loaded).2
    | ok source =>
      rw [first] at loaded
      obtain ⟨rfl, all⟩ := Prod.mk.inj loaded
      rw [loadSource_of_sameFile own, first]
      dsimp only
      rw [ih others (Prod.ext rfl all)]

/-! ### The same check, or none -/

/-- The search for files fails at an entry below the source directory that the first of two trees does not have. -/
def SearchFailsAtNew (before after : FileSystem) (config : CheckerConfig) (chain : List String) : Prop :=
  Discovery.FailsAtNew before after (.ofText config.sourceDir) config.contractNames chain

/-- The failure of a search at an entry below the source directory whose path is too long. -/
def searchFailure (config : CheckerConfig) (chain : List String) : Failure :=
  .discovery (.access ⟨.nameTooLong, (Path.ofText config.sourceDir).below chain⟩)

theorem checkFiles_of_leaves (tree : before.root.Distinct) (named : before.root.WellNamed)
    (leaves : before.Leaves after (.ofText options.out) content) {config : CheckerConfig}
    (apart : Apart after options config) {result : CheckResult} (checked : (checkFiles before config).2 = .ok result) :
    checkFiles after config = checkFiles before config ∨
      ∃ chain, SearchFailsAtNew before after config chain ∧
        checkFiles after config = ([], .error (searchFailure config chain)) := by
  obtain ⟨files, sources, found, loaded, -⟩ := checkFiles_eq_ok_iff.mp checked
  rcases discover_of_leaves tree named leaves apart.sources found with found' | ⟨chain, fails⟩
  · have loaded' := loadSources_of_sameFile
      (fun _ => sameFile_of_discover tree named leaves apart.sources found) loaded
    refine Or.inl ?_
    unfold checkFiles
    dsimp only
    rw [found, found']
    dsimp only
    rw [loaded, loaded']
  · exact Or.inr ⟨chain, fails, checkFiles_of_discover_error fails.fails⟩

theorem check_of_leaves (tree : before.root.Distinct) (named : before.root.WellNamed)
    (leaves : before.Leaves after (.ofText options.out) content) {config : CheckerConfig}
    (settled : (settle before options).2 = .ok config) (apart : Apart after options config) {result : CheckResult}
    (checked : (checkFiles before config).2 = .ok result) :
    check after options = check before options ∨
      ∃ chain, SearchFailsAtNew before after config chain ∧
        check after options = ((settle before options).1, .error (searchFailure config chain)) := by
  have same := settle_of_leaves leaves apart settled
  have files := checkFiles_of_leaves tree named leaves apart checked
  unfold check
  rw [same]
  generalize settle before options = found at settled
  obtain ⟨notices, _⟩ := found
  obtain rfl := settled
  dsimp only
  rcases files with files | ⟨chain, fails, files⟩
  · exact Or.inl (by rw [files])
  · exact Or.inr ⟨chain, fails, by rw [files, List.append_nil]⟩

/-! ### The same directories and the same file -/

/-- Two runs that both fail to make the directories on the way to a file: the first one at one of them, where a file
    or a name that is too long is in the way, the second one at all of them at once, as they lead past that. -/
def FailPast (directory : Path) (first second : Ending) : Prop :=
  ∃ obstacle reached, (obstacle = .exists ∨ obstacle = .nameTooLong) ∧ reached < directory.parts.length ∧
    first = .broken (.access ⟨obstacle, directory.upTo reached⟩) ∧
    second = .broken (.access ⟨obstacle.past, directory⟩)

theorem writeDocument_again {fs after : FileSystem} {out document : String} {code : Nat}
    (left : (writeDocument fs out document code).filesAfter fs = after) (changed : after ≠ fs) :
    (writeDocument after out document code).effects = (writeDocument fs out document code).effects ∧
      (writeDocument after out document code).filesAfter after = after ∧
      ((writeDocument after out document code).ending = (writeDocument fs out document code).ending ∨
        FailPast (Path.ofText out).parent (writeDocument fs out document code).ending
          (writeDocument after out document code).ending) := by
  cases made : fs.ensureDirectories (Path.ofText out).parent with
  | mk middle done =>
    cases done with
    | error e =>
      obtain ⟨first, stays⟩ := writeDocument_of_unmade document code made
      obtain rfl : middle = after := stays.symm.trans left
      obtain ⟨names, parts⟩ := Path.exists_names out
      have parts : (Path.ofText out).parent.parts = names.dropLast.map RawText.ofString := by
        rw [Path.parent, parts, List.map_dropLast]
      rcases FileSystem.blocked_of_ensureParts parts (Nat.le_refl _) made with
        same | ⟨free, reached, obstacle, folder, part, past, rfl, blocked⟩
      · exact absurd same changed
      · have again := blocked.ensureParts past (Nat.le_refl _) free
        rw [Path.upTo_length] at again
        obtain ⟨second, stays⟩ := writeDocument_of_unmade document code again
        refine ⟨by rw [first, second], stays, ?_⟩
        rw [first, second]
        unfold FileSystem.Blocked.verdict
        split
        · rename_i own
          rw [← own, Path.upTo_length]
          exact Or.inl rfl
        · have cause : obstacle = .exists ∨ obstacle = .nameTooLong := by
            rcases blocked.cause with ⟨-, long⟩ | ⟨_, _, -, -, file⟩
            · exact Or.inr long
            · exact Or.inl file
          exact Or.inr ⟨obstacle, reached + 1, cause, by omega, rfl, rfl⟩
    | ok =>
      cases written : middle.write (.ofText out) (Utf8.encode document.toList) with
      | error e =>
        obtain ⟨first, stays⟩ := writeDocument_of_unwritten code made written
        obtain rfl : middle = after := stays.symm.trans left
        have again := FileSystem.ensureDirectories_again made (.refl middle)
        obtain ⟨second, stays⟩ := writeDocument_of_unwritten code again written
        exact ⟨by rw [first, second], stays, Or.inl (by rw [first, second])⟩
      | ok written' =>
        obtain ⟨first, stays⟩ := writeDocument_of_written code made written
        obtain rfl : written' = after := stays.symm.trans left
        obtain ⟨place, puts⟩ := FileSystem.write_eq_ok written
        have again := FileSystem.ensureDirectories_again made puts.grows
        obtain ⟨second, stays⟩ := writeDocument_of_written code again (FileSystem.write_again written)
        exact ⟨by rw [first, second], stays, Or.inl (by rw [first, second])⟩

/-! ### The whole run -/

theorem standardOutput_congr {first second : Outcome} (same : second.effects = first.effects) :
    second.standardOutput = first.standardOutput ∧ second.standardError = first.standardError := by
  rw [Outcome.standardOutput, Outcome.standardError, same]
  exact ⟨rfl, rfl⟩

/-- A run that changes a tree makes a check and writes its result. -/
theorem exists_check_of_ne {fs : FileSystem} {arguments : List String}
    (changed : (run fs arguments).filesAfter fs ≠ fs) : ∃ options result,
      Options.ofArguments arguments = .ok options ∧ (check fs options).2 = .ok result ∧ options.out ≠ "" := by
  cases asked : Options.ofArguments arguments with
  | error halt =>
    refine absurd ?_ changed
    rw [run, asked]
    cases halt <;> rfl
  | ok options =>
    cases checked : (check fs options).2 with
    | error e => exact absurd (leavesNothing_of_check_error asked checked).2 changed
    | ok result =>
      refine ⟨options, result, rfl, checked, fun out => changed ?_⟩
      rw [(filesAfter_run_of_checked asked checked).1, deliver_of_out_eq_empty checked out, deliveries,
        if_neg (not_not_intro out)]
      cases options.format <;> rfl

/-- A second run that makes the same check on what the first one left does what that one did, up to the reason for
    which it cannot make the directories on the way to its file. -/
theorem run_again_of_check {fs after : FileSystem} {arguments : List String} {result : CheckResult}
    (asked : Options.ofArguments arguments = .ok options) (checked : (check fs options).2 = .ok result)
    (out : options.out ≠ "") (left : (run fs arguments).filesAfter fs = after) (changed : after ≠ fs)
    (again : check after options = check fs options) :
    (run after arguments).filesAfter after = after ∧
      (run after arguments).effects = (run fs arguments).effects ∧
      ((run after arguments).ending = (run fs arguments).ending ∨
        FailPast (Path.ofText options.out).parent (run fs arguments).ending (run after arguments).ending) := by
  have checked' : (check after options).2 = .ok result := by rw [again, checked]
  obtain ⟨first, ended⟩ := filesAfter_run_of_out_ne_empty asked checked out
  obtain ⟨second, ended'⟩ := filesAfter_run_of_out_ne_empty asked checked' out
  obtain ⟨effects, stays, alike⟩ := writeDocument_again (first.symm.trans left) changed
  refine ⟨second.trans stays, ?_, ?_⟩
  · rw [run_of_checked asked checked', run_of_checked asked checked, again, deliver_of_out_ne_empty checked' out,
      deliver_of_out_ne_empty checked out]
    exact congrArg (fun written => progress options (check fs options).1 ++
      ([.output (result.report ++ "\n")] ++ written)) effects
  · rw [ended, ended']
    exact alike

end Run

open Run

/-- A second run on the tree that the first one left leaves the tree as it is, if the file that is written is none of
    those that are read. It prints the same as the first one and ends alike; but if the first run made some of the
    directories on the way to the file and then failed at one of them, because of a file in the way or of a name that is
    too long, the second run fails at the last of them at once, and is told that the file in the way is no directory, or
    that the name is too long. Only if all files below the source directory are asked for and the first run made
    something there whose path from the source directory on is too long to be looked up, the second run fails at that
    and prints nothing but its messages about the configuration. -/
theorem run_twice (fs : FileSystem) (arguments : List String) (tree : fs.root.Distinct) (named : fs.root.WellNamed)
    (apart : ∀ options config, Options.ofArguments arguments = .ok options → options.out ≠ "" →
      (settle fs options).2 = .ok config → Apart ((run fs arguments).filesAfter fs) options config) :
    let first := run fs arguments
    let after := first.filesAfter fs
    let second := run after arguments
    second.filesAfter after = after ∧
    (second.effects = first.effects ∧ second.standardOutput = first.standardOutput ∧
        second.standardError = first.standardError ∧
        (second.ending = first.ending ∨ after ≠ fs ∧ ∃ options, Options.ofArguments arguments = .ok options ∧
          FailPast (Path.ofText options.out).parent first.ending second.ending) ∨
      ∃ options config chain, Options.ofArguments arguments = .ok options ∧ options.out ≠ "" ∧
        (settle fs options).2 = .ok config ∧ SearchFailsAtNew fs after config chain ∧
        second = ⟨progress options (settle fs options).1, .broken (searchFailure config chain)⟩) := by
  intro first after second
  by_cases changed : after = fs
  · have same : second = first := by
      dsimp only [second]
      rw [changed]
    rw [same]
    exact ⟨by rw [changed]; exact changed, Or.inl ⟨rfl, rfl, rfl, Or.inl rfl⟩⟩
  · obtain ⟨options, result, asked, checked, out⟩ := exists_check_of_ne changed
    obtain ⟨config, settled, files⟩ := check_eq_ok_iff.mp checked
    obtain ⟨left, -⟩ := filesAfter_run_of_out_ne_empty asked checked out
    have leaves : fs.Leaves after (.ofText options.out) (Utf8.encode result.toJson.print.toList) := by
      dsimp only [after, first]
      rw [left]
      exact leaves_of_writeDocument fs options.out _ result.exitCode
    rcases check_of_leaves tree named leaves settled (apart options config asked out settled) files with
      again | ⟨chain, fails, again⟩
    · obtain ⟨stays, effects, alike⟩ := run_again_of_check asked checked out rfl changed again
      obtain ⟨output, error⟩ := standardOutput_congr effects
      exact ⟨stays, Or.inl ⟨effects, output, error, alike.imp_right fun past => ⟨changed, options, asked, past⟩⟩⟩
    · have failed : (check after options).2 = .error (searchFailure config chain) := congrArg Prod.snd again
      have broken : second = ⟨progress options (settle fs options).1, .broken (searchFailure config chain)⟩ := by
        dsimp only [second]
        rw [run_of_check_error asked failed, again]
        exact congrArg (Outcome.mk · _) (List.append_nil _)
      exact ⟨(leavesNothing_of_check_error asked failed).2,
        Or.inr ⟨options, config, chain, asked, out, settled, fails, broken⟩⟩

/-- A report in a directory that is not there yet. -/
theorem run_twice_new_directory :
    let fs : FileSystem := ⟨.directory [("src", .directory [("a.sol", .file [])])], []⟩
    let first := run fs ["--out", "new/x.json"]
    let after := first.filesAfter fs
    let second := run after ["--out", "new/x.json"]
    fs.root.Distinct ∧ fs.root.WellNamed ∧
      (∀ options config, Options.ofArguments ["--out", "new/x.json"] = .ok options → options.out ≠ "" →
        (settle fs options).2 = .ok config → Apart after options config) ∧
      second.effects = first.effects ∧ second.filesAfter after = after := by
  intro fs first after second
  have tree : fs.root.Distinct := by
    refine .directory (by decide) fun child hc => ?_
    obtain rfl := List.mem_singleton.mp hc
    exact .directory (by decide) fun child hc => List.mem_singleton.mp hc ▸ .file []
  have named : fs.root.WellNamed := by
    refine Entry.wellNamed_directory fun child hc => ?_
    obtain rfl := List.mem_singleton.mp hc
    refine ⟨by decide, Entry.wellNamed_directory fun child hc => ?_⟩
    obtain rfl := List.mem_singleton.mp hc
    exact ⟨by decide, Entry.wellNamed_file []⟩
  have apart : ∀ options config, Options.ofArguments ["--out", "new/x.json"] = .ok options → options.out ≠ "" →
      (settle fs options).2 = .ok config → Apart after options config := by
    intro options config asked _ settled
    have choices : Options.ofArguments ["--out", "new/x.json"] = .ok { out := "new/x.json" } := by decide +kernel
    obtain rfl := Except.ok.inj (choices.symm.trans asked)
    obtain rfl : ({} : CheckerConfig).override { out := "new/x.json" } = config := Except.ok.inj settled
    have written : after.locate (.ofText "new/x.json") = .ok ["new", "x.json"] := by decide +kernel
    have source : after.locate (.ofText "src") = .ok ["src"] := by decide +kernel
    have missing : after.locate (Discovery.contractPath (.ofText "src") "*") = .error .missing := by decide +kernel
    refine ⟨fun given => absurd rfl given, fun name listed place _ located => ?_,
      fun place located folders name _ leads => ?_⟩
    · obtain rfl : name = RawText.ofString "*" := List.mem_singleton.mp listed
      cases missing.symm.trans located
    · obtain rfl : ["src"] = place := Except.ok.inj (source.symm.trans located)
      have same : ["new", "x.json"] = "src" :: (folders ++ [name]) := Except.ok.inj (written.symm.trans leads)
      exact absurd (List.cons.inj same).1 (by decide)
  have ended : second.ending = .exit 1 := Ending.code?_eq_some_iff.mp (by decide +kernel)
  obtain ⟨stays, ⟨effects, -⟩ | ⟨options, config, chain, -, -, -, -, broken⟩⟩ :=
    run_twice fs ["--out", "new/x.json"] tree named apart
  · exact ⟨tree, named, apart, effects, stays⟩
  · cases ended.symm.trans (congrArg Outcome.ending broken)

/-- The path failure that broke a run off. -/
def Ending.fileError? : Ending → Option FileError
  | .broken (.access e) => some e
  | _ => none

theorem Ending.fileError?_eq_some_iff {ending : Ending} {e : FileError} :
    ending.fileError? = some e ↔ ending = .broken (.access e) := by
  cases ending with
  | exit code => exact ⟨nofun, nofun⟩
  | broken failure => cases failure <;> simp [fileError?]

/-- A source directory and a file to write, each behind an equals sign. -/
theorem Run.ofArguments_directory_out {directory out : String} (one : directory ≠ "--") (two : out ≠ "--") :
    Options.ofArguments ["--source-dir" ++ "=" ++ directory, "--out" ++ "=" ++ out] =
      .ok { sourceDir := directory, out } :=
  CommandLine.Group.ofArguments_map_word
    [.assignment "--source-dir" .sourceDir directory (by decide) one, .assignment "--out" .out out (by decide) two]

namespace Path

theorem ofText_detour (turns : Nat) : ofText (detour turns).text.toString = detour turns := by
  have kept : ∀ part ∈ (detour turns).parts, IsKept part := by
    intro part hp
    have either : part = RawText.ofString "s" ∨ part = RawText.ofString ".." := by
      simp only [detour, List.map_append, List.mem_append, List.mem_map, List.mem_flatten, List.mem_replicate] at hp
      obtain ⟨name, ⟨_, ⟨-, rfl⟩, hn⟩, rfl⟩ | ⟨name, hn, rfl⟩ := hp
      · simp only [List.mem_cons, List.not_mem_nil, or_false] at hn
        exact hn.imp (congrArg RawText.ofString) (congrArg RawText.ofString)
      · exact Or.inl (congrArg RawText.ofString (List.mem_singleton.mp hn))
    rcases either with rfl | rfl
    · exact ⟨⟨by decide, by decide⟩, by decide⟩
    · exact ⟨⟨by decide, by decide⟩, by decide⟩
  rw [ofString_toString_text rfl, ofText_text rfl (by simp [detour]) kept]

/-- The text of such a path is none that is read as a path to another name. -/
theorem text_detour_ne (turns : Nat) {text : String} (other : (ofText text).name ≠ RawText.ofString "s") :
    (detour turns).text.toString ≠ text := by
  rintro rfl
  rw [ofText_detour] at other
  exact other (by simp [name, detour])

end Path

/-- A file that is written in an empty directory. -/
theorem Run.writeDocument_new_file (document : String) (code : Nat) :
    let fs : FileSystem := ⟨.directory [("s", .directory [])], []⟩
    (writeDocument fs "s/o.js" document code).ending = .exit code ∧
      (writeDocument fs "s/o.js" document code).filesAfter fs =
        ⟨.directory [("s", .directory [("o.js", .file (Utf8.encode document.toList))])], []⟩ := by
  intro fs
  have made : fs.ensureDirectories (Path.ofText "s/o.js").parent = (fs, .ok ()) :=
    FileSystem.ensureParts_of_isDirectory (by decide +kernel)
  have target : fs.target (.ofText "s/o.js") = .ok (["s"], "o.js") := by decide +kernel
  have written : fs.write (.ofText "s/o.js") (Utf8.encode document.toList) =
      .ok ⟨.directory [("s", .directory [("o.js", .file (Utf8.encode document.toList))])], []⟩ := by
    rw [FileSystem.write, target]
    rfl
  obtain ⟨outcome, left⟩ := writeDocument_of_written code made written
  exact ⟨congrArg Outcome.ending outcome, left⟩

/-- Two runs that write a file in an empty source directory, from where its path is too long: the second one fails at
    it. -/
theorem Run.endings_of_new_file {source : String} (some : source ≠ "") (other : source ≠ "--") :
    let fs : FileSystem := ⟨.directory [("s", .directory [])], []⟩
    let directory := Path.ofText source
    let arguments := ["--source-dir" ++ "=" ++ source, "--out" ++ "=" ++ "s/o.js"]
    let after := (run fs arguments).filesAfter fs
    fs.locate directory = .ok ["s"] → FileSystem.startObstacle? (directory.child "o.js") = .some .nameTooLong →
      FileSystem.startObstacle? (Discovery.contractPath directory "*") = .some .nameTooLong →
      (∀ options config, Options.ofArguments arguments = .ok options → options.out ≠ "" →
        (settle fs options).2 = .ok config → Apart after options config) ∧
      (run fs arguments).ending = .exit 0 ∧
      (run after arguments).ending = .broken (.discovery (.access ⟨.nameTooLong, directory.child "o.js"⟩)) := by
  intro fs directory arguments after located long star
  let options : Options := { sourceDir := source, out := "s/o.js" }
  let config : CheckerConfig := { sourceDir := source }
  let document := ({} : CheckResult).toJson.print
  have asked : Options.ofArguments arguments = .ok options := ofArguments_directory_out other (by decide)
  have settled (fs : FileSystem) : (settle fs options).2 = .ok config := by
    have chosen : CheckerConfig.override {} options = config := by
      simp [options, config, CheckerConfig.override, some]
    rw [settle, if_pos (by rfl)]
    exact congrArg Except.ok chosen
  -- The first run finds nothing, and writes its file.
  have found : discover fs directory ["*"] = .ok [] := by
    rw [discover_star (FileSystem.entry?_eq_some_iff.mpr ⟨["s"], located, rfl⟩) List.mem_cons_self, Discovery.walk,
      Discovery.walkChildren, Discovery.inNameOrder, List.mergeSort_nil]
    rfl
  have checked : (check fs options).2 = .ok {} :=
    check_eq_ok_iff.mpr ⟨config, settled fs, checkFiles_eq_ok_iff.mpr ⟨[], [], found, rfl, rfl, by decide +kernel⟩⟩
  have out : options.out ≠ "" := by
    dsimp only [options]
    decide
  obtain ⟨left, ended⟩ := filesAfter_run_of_out_ne_empty asked checked out
  obtain ⟨code, files⟩ := writeDocument_new_file document 0
  have made : after = ⟨.directory [("s", .directory [("o.js", .file (Utf8.encode document.toList))])], []⟩ :=
    left.trans files
  have file : after.locate (.ofText "s/o.js") = .ok ["s", "o.js"] := by
    rw [made]
    decide +kernel
  -- The second run finds the directory again, and in it only what it cannot look up.
  have located' : after.locate directory = .ok ["s"] := by
    dsimp only [after]
    rw [left]
    exact (leaves_of_writeDocument fs "s/o.js" document 0).grows.locate located
  have root : after.entry? directory = .ok (.some (.directory [("o.js", .file (Utf8.encode document.toList))])) :=
    FileSystem.entry?_eq_some_iff.mpr ⟨["s"], located', by rw [made]; rfl⟩
  have unseen : after.locate (directory.child "o.js") = .error .nameTooLong := by rw [FileSystem.locate, long]
  have failed : (check after options).2 = .error (.discovery (.access ⟨.nameTooLong, directory.child "o.js"⟩)) := by
    have refused : discover after (.ofText config.sourceDir) config.contractNames =
        .error (.access ⟨.nameTooLong, directory.child "o.js"⟩) :=
      discover_star_of_long_child root List.mem_cons_self unseen
    rw [check_eq_bind, settled]
    change (checkFiles after config).2 = _
    rw [checkFiles_of_discover_error refused]
  refine ⟨fun _ _ asked' _ settled' => ?_, ended.trans code, ?_⟩
  · obtain rfl := Except.ok.inj (asked.symm.trans asked')
    obtain rfl := Except.ok.inj ((settled fs).symm.trans settled')
    refine ⟨fun given => absurd rfl given, fun name listed place _ leads => ?_, fun place leads folders name sol => ?_⟩
    · obtain rfl : name = RawText.ofString "*" := List.mem_singleton.mp listed
      rw [FileSystem.locate, star] at leads
      cases leads
    · obtain rfl : ["s"] = place := Except.ok.inj (located'.symm.trans leads)
      intro same
      have same : ["o.js"] = folders ++ [name] := (List.cons.inj (Except.ok.inj (file.symm.trans same))).2
      obtain rfl : "o.js" = name := by simpa using congrArg List.getLast? same
      exact absurd sol (by decide)
  · rw [run_of_check_error asked failed]
    rfl

/-- Second runs that are unlike the first ones. Behind a directory that the first run makes a file is in the way: the
    first run stops at that file, and the second one is told that it is no directory. And in an empty source directory,
    which is named by a path of many double dots, the first run writes a file, whose path from there is too long for the
    second one. -/
theorem run_twice_unlike :
    (let fs : FileSystem := ⟨.directory [("src", .directory []), ("f", .file [])], []⟩
    let first := run fs ["--out", "new/../f/g/x.json"]
    let after := first.filesAfter fs
    let second := run after ["--out", "new/../f/g/x.json"]
    (∀ place, after.locate (.ofText "new/../f/g/x.json") ≠ .ok place) ∧
      first.ending = .broken (.access ⟨.exists, .ofText "new/../f"⟩) ∧
      second.ending = .broken (.access ⟨.notDirectory, .ofText "new/../f/g"⟩) ∧ second.ending ≠ first.ending) ∧
    (let fs : FileSystem := ⟨.directory [("s", .directory [])], []⟩
    let arguments := ["--source-dir" ++ "=" ++ (Path.detour 818).text.toString, "--out" ++ "=" ++ "s/o.js"]
    let first := run fs arguments
    let after := first.filesAfter fs
    let second := run after arguments
    (∀ options config, Options.ofArguments arguments = .ok options → options.out ≠ "" →
        (settle fs options).2 = .ok config → Apart after options config) ∧
      first.ending = .exit 0 ∧
      second.ending = .broken (.discovery (.access ⟨.nameTooLong, (Path.detour 818).child "o.js"⟩))) := by
  refine ⟨?_, ?_⟩
  · intro fs first after second
    have located : after.locate (.ofText "new/../f/g/x.json") = .error .notDirectory := by decide +kernel
    have one : first.ending = .broken (.access ⟨.exists, .ofText "new/../f"⟩) :=
      Ending.fileError?_eq_some_iff.mp (by decide +kernel)
    have two : second.ending = .broken (.access ⟨.notDirectory, .ofText "new/../f/g"⟩) :=
      Ending.fileError?_eq_some_iff.mp (by decide +kernel)
    refine ⟨fun place leads => ?_, one, two, fun same => ?_⟩
    · rw [located] at leads
      cases leads
    · rw [one, two] at same
      cases same
  · have named : (Path.detour 818).text.toString ≠ "" := Path.text_detour_ne 818 (by decide)
    have last : (Path.detour 818).text.toString ≠ "--" := Path.text_detour_ne 818 (by decide)
    have whole := endings_of_new_file named last
    rw [Path.ofText_detour] at whole
    exact whole (by decide +kernel) (by decide +kernel) (by decide +kernel)

end SolidityLint

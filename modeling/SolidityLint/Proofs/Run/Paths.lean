import Mathlib.Data.List.Nodup
import SolidityLint.Proofs.Check.Accumulation
import SolidityLint.Proofs.Files.Agreement
import SolidityLint.Proofs.Groups
import SolidityLint.Run.Checking

/-! The paths under which files are reported. A file below the source directory is reported under the name of that
    directory, if it has one, and the parts below it. The files that a walk finds have names without slashes, so their
    paths are told apart by their texts, and the groups of a report are those of its files. -/

namespace SolidityLint

/-! ### Paths from the name of a directory on -/

namespace Path

/-- The path of a file from the name of a directory on: the last part of the directory, if it has one, and the parts of
    the file below it. -/
def fromNameOf (directory file : Path) : Path :=
  ⟨0, directory.parts.getLast?.toList ++ file.parts.drop directory.parts.length⟩

theorem fromNameOf_of_append {directory file : Path} {below : List RawText}
    (parts : file.parts = directory.parts ++ below) :
    directory.fromNameOf file = ⟨0, directory.parts.getLast?.toList ++ below⟩ := by
  rw [fromNameOf, parts, List.drop_left]

theorem parts_eq_parent_append (directory : Path) :
    directory.parts = directory.parent.parts ++ directory.parts.getLast?.toList := by
  rcases List.eq_nil_or_concat directory.parts with none | ⟨front, part, parts⟩
  · simp [parent, none]
  · rw [List.concat_eq_append] at parts
    rw [parent, parts, List.dropLast_concat, List.getLast?_concat]
    rfl

theorem fromNameOf_below (directory : Path) (names : List String) :
    directory.fromNameOf (directory.below names) =
      ⟨0, directory.parts.getLast?.toList ++ names.map RawText.ofString⟩ :=
  fromNameOf_of_append rfl

/-- Chains of names below a directory are told apart by the texts of their paths from its name on. -/
theorem text_fromNameOf_injective {text : RawText} {names names' : List String} (some : names ≠ [])
    (some' : names' ≠ []) (named : ∀ name ∈ names, IsFileName name) (named' : ∀ name ∈ names', IsFileName name)
    (same : ((ofText text).fromNameOf ((ofText text).below names)).text =
      ((ofText text).fromNameOf ((ofText text).below names')).text) : names = names' := by
  have plain {names : List String} (named : ∀ name ∈ names, IsFileName name) :
      ∀ part ∈ (ofText text).parts.getLast?.toList ++ names.map RawText.ofString, IsPart part := by
    intro part hp
    rcases List.mem_append.mp hp with hp | hp
    · exact isPart_of_mem_ofText (List.mem_of_getLast? (Option.mem_toList.mp hp))
    · obtain ⟨name, hn, rfl⟩ := List.mem_map.mp hp
      exact isPart_ofString (named name hn)
  have parts_ne_nil {names : List String} (some : names ≠ []) :
      (ofText text).parts.getLast?.toList ++ names.map RawText.ofString ≠ [] := by simp [some]
  rw [fromNameOf_below, fromNameOf_below] at same
  have parts := parts_eq_of_text_eq rfl rfl (parts_ne_nil some) (parts_ne_nil some') (plain named) (plain named') same
  exact RawText.map_ofString_injective (List.append_cancel_left parts)

end Path

/-! ### What is shown of files that are found -/

open Discovery Run

theorem shownPath_of_append {directory file : Path} {below : List RawText} (slashes : file.slashes = directory.slashes)
    (parts : file.parts = directory.parts ++ below) :
    shownPath directory file = .ok (directory.fromNameOf file) := by
  have front : file.parts = directory.parent.parts ++ (directory.parts.getLast?.toList ++ below) := by
    rw [parts, ← List.append_assoc, ← directory.parts_eq_parent_append]
  have relative : file.relativeTo? directory.parent = some (directory.fromNameOf file) := by
    rw [Path.relativeTo?, if_pos, Path.fromNameOf_of_append parts, front, List.drop_left]
    exact ⟨slashes, List.isPrefixOf_iff_prefix.mpr ⟨_, front.symm⟩⟩
  rw [shownPath, relative]

/-- A file that is found is the source directory and something below it, unless its name is an absolute path. -/
theorem below_of_discover {fs : FileSystem} {directory : Path} {names : List RawText} {files : List Path}
    (tree : fs.root.Distinct) (asked : RawText.ofString wildcard ∈ names ∨
      ∀ name ∈ names, (Path.ofText (name ++ sourceEnding)).slashes = 0)
    (found : discover fs directory names = .ok files) {file : Path} (hf : file ∈ files) :
    ∃ below, file = ⟨directory.slashes, directory.parts ++ below⟩ := by
  obtain ⟨place, children, -, there, ⟨-, walked⟩ | ⟨star, found⟩⟩ := discover_eq_ok_iff.mp found
  · obtain ⟨chain, _, rfl, -⟩ := (mem_of_walk (tree.get? there) walked file).mp hf
    exact ⟨chain.map RawText.ofString, rfl⟩
  · obtain ⟨rfl, -⟩ := named_eq_ok_iff.mp found
    obtain ⟨name, listed, rfl⟩ := List.mem_map.mp hf
    rw [contractPath, Path.join, if_pos ((asked.resolve_left star) name listed)]
    exact ⟨_, rfl⟩

/-- Files that are found by a walk are shown under different paths. -/
theorem nodup_shown_of_walk {fs : FileSystem} {text : RawText} {place : List String}
    {children : List (String × Entry)} {files : List Path} (tree : fs.root.Distinct) (named : fs.root.WellNamed)
    (there : fs.root.get? place = some (.directory children))
    (walked : walk fs (.ofText text) "" (.directory children) = .ok files) :
    (files.map fun file => ((Path.ofText text).fromNameOf file).text).Nodup := by
  have distinct := tree.get? there
  have chain {file : Path} (hf : file ∈ files) : ∃ names, names ≠ [] ∧
      (∀ name ∈ names, IsFileName name) ∧ file = (Path.ofText text).below names := by
    obtain ⟨names, content, rfl, standing, -⟩ := (mem_of_walk distinct walked file).mp hf
    rw [Entry.get?_of_below there] at standing
    refine ⟨names, ?_, fun name hn => ?_, rfl⟩
    · rintro rfl
      rw [List.append_nil, there] at standing
      cases standing
    · exact named (place ++ names) (by rw [standing]; rfl) name (List.mem_append_right _ hn)
  refine List.Nodup.map_on (fun file hf file' hf' same => ?_)
    (List.nodup_iff_pairwise_ne.mpr ((pairwise_of_walk distinct walked).imp Path.Before.ne))
  obtain ⟨names, some, own, rfl⟩ := chain hf
  obtain ⟨names', some', own', rfl⟩ := chain hf'
  rw [Path.text_fromNameOf_injective some some' own own' same]

/-! ### Groups of a check -/

theorem Source.path_of_mem_findings {source : Source} {rules : RuleConfiguration} {severities : SeverityMap}
    {finding : Finding} (h : finding ∈ source.findings rules severities) : finding.path = source.path := by
  rw [source.findings_eq_map] at h
  obtain ⟨violation, -, rfl⟩ := List.mem_map.mp h
  rfl

theorem filter_findings_of_nodup {sources : List Source} (paths : (sources.map (·.path)).Nodup)
    (rules : RuleConfiguration) (severities : SeverityMap) {source : Source} (hs : source ∈ sources) :
    (sources.flatMap (·.findings rules severities)).filter (·.path = source.path) =
      source.findings rules severities := by
  have own (source : Source) : (source.findings rules severities).filter (·.path = source.path) =
      source.findings rules severities :=
    List.filter_eq_self.mpr fun finding hf => decide_eq_true (Source.path_of_mem_findings hf)
  induction sources with
  | nil => cases hs
  | cons first rest ih =>
    obtain ⟨fresh, distinct⟩ := List.nodup_cons.mp paths
    rw [List.flatMap_cons, List.filter_append]
    rcases List.mem_cons.mp hs with rfl | hs
    · have others : (rest.flatMap (·.findings rules severities)).filter (·.path = source.path) = [] := by
        refine List.filter_eq_nil_iff.mpr fun finding hf same => fresh ?_
        obtain ⟨other, ho, hf⟩ := List.mem_flatMap.mp hf
        exact List.mem_map.mpr ⟨other, ho, (Source.path_of_mem_findings hf).symm.trans (of_decide_eq_true same)⟩
      rw [own, others, List.append_nil]
    · have none : (first.findings rules severities).filter (·.path = source.path) = [] := by
        refine List.filter_eq_nil_iff.mpr fun finding hf same => fresh ?_
        exact List.mem_map.mpr ⟨source, hs, (of_decide_eq_true same).symm.trans (Source.path_of_mem_findings hf)⟩
      rw [none, List.nil_append, ih distinct hs]

/-- Of files with different paths each one with findings is a group, in the order of the files. -/
theorem groups_checkSources_of_nodup {sources : List Source} (paths : (sources.map (·.path)).Nodup)
    (rules : RuleConfiguration) (severities : SeverityMap) :
    (checkSources sources rules severities).groups =
      (sources.map fun source => (source.path, source.findings rules severities)).filter
        fun group => !group.2.isEmpty := by
  have files : (checkSources sources rules severities).files = sources.map (·.path) := files_checkSources _ _ _
  have known : ∀ finding ∈ (checkSources sources rules severities).findings,
      finding.path ∈ (checkSources sources rules severities).files := by
    intro finding hf
    rw [findings_checkSources] at hf
    obtain ⟨source, hs, hf⟩ := List.mem_flatMap.mp hf
    rw [files, Source.path_of_mem_findings hf]
    exact List.mem_map_of_mem hs
  rw [CheckResult.groups_eq_of_nodup (files ▸ paths) known, files, findings_checkSources, List.map_map]
  refine congrArg (List.filter _) (List.map_congr_left fun source hs => ?_)
  rw [Function.comp_apply, filter_findings_of_nodup paths rules severities hs]

/-- Groups that are left out have no findings. -/
theorem flatMap_filter_nonempty (groups : List (RawText × List Finding)) :
    (groups.filter fun group => !group.2.isEmpty).flatMap (·.2) = groups.flatMap (·.2) := by
  induction groups with
  | nil => rfl
  | cons group rest ih =>
    obtain ⟨path, findings⟩ := group
    cases findings with
    | nil => exact ih
    | cons first others =>
      rw [List.filter_cons_of_pos rfl, List.flatMap_cons, List.flatMap_cons, ih]

theorem flatMap_groups_checkSources {sources : List Source} (paths : (sources.map (·.path)).Nodup)
    (rules : RuleConfiguration) (severities : SeverityMap) :
    (checkSources sources rules severities).groups.flatMap (·.2) =
      (checkSources sources rules severities).findings := by
  rw [groups_checkSources_of_nodup paths, flatMap_filter_nonempty, List.flatMap_map, findings_checkSources]

/-! ### Sources that are loaded -/

theorem path_of_load {fs : FileSystem} {path : Path} {shown : RawText} {source : Source}
    (h : Source.load fs path shown = .ok source) : source.path = shown := by
  unfold Source.load at h
  cases there : fs.exists? path with
  | error e => rw [there] at h; cases h
  | ok isThere =>
    rw [there] at h
    cases isThere with
    | false => exact Except.ok.inj h ▸ rfl
    | true =>
      cases read : fs.read path with
      | error e => rw [read] at h; cases h
      | ok bytes =>
        rw [read] at h
        exact Except.ok.inj h ▸ rfl

theorem map_path_of_loadSources {fs : FileSystem} {directory : Path} {files : List Path} {sources : List Source}
    {shown : Path → Path} (paths : ∀ file ∈ files, shownPath directory file = .ok (shown file))
    (loaded : loadSources fs directory files = (sources, none)) :
    sources.map (·.path) = files.map fun file => (shown file).text := by
  induction files generalizing sources with
  | nil =>
    obtain ⟨rfl, -⟩ := Prod.mk.inj loaded
    rfl
  | cons file rest ih =>
    obtain ⟨own, others⟩ := List.forall_mem_cons.mp paths
    unfold loadSources at loaded
    cases first : loadSource fs directory file with
    | error e =>
      rw [first] at loaded
      cases (Prod.mk.inj loaded).2
    | ok source =>
      rw [first] at loaded
      obtain ⟨rfl, all⟩ := Prod.mk.inj loaded
      have path : source.path = (shown file).text := by
        rw [loadSource, own] at first
        have first : (Source.load fs file (shown file).text).mapError Failure.access = .ok source := first
        cases read : Source.load fs file (shown file).text with
        | error e => rw [read] at first; cases first
        | ok made =>
          rw [read] at first
          exact Except.ok.inj first ▸ path_of_load read
      rw [List.map_cons, List.map_cons, path, ih others (Prod.ext rfl all)]

/-- Every file that is found below an existing source directory, by a walk or by names that are no absolute paths, is
    shown under the last part of the directory, if it has one, followed by the parts of the file below it. The files
    that a walk finds are shown under different paths, and if they can all be read, the groups of the result are the
    files with findings in the order in which they were found, and all groups one after another are all findings. A walk
    of such a directory finds its files, or an entry whose path is too long to be looked up is the failure. -/
theorem shown_paths (fs : FileSystem) (text : RawText) (names : List RawText) (tree : fs.root.Distinct)
    (named : fs.root.WellNamed) (there : fs.isDirectory (.ofText text) = .ok true)
    (asked : RawText.ofString "*" ∈ names ∨ ∀ name ∈ names, (Path.ofText (name ++ ".sol")).slashes = 0) :
    let directory := Path.ofText text
    (∀ files, discover fs directory names = .ok files → ∀ file ∈ files, ∃ below,
      file = ⟨directory.slashes, directory.parts ++ below⟩ ∧
      shownPath directory file = .ok ⟨0, directory.parts.getLast?.toList ++ below⟩) ∧
    (RawText.ofString "*" ∈ names → ∀ files, discover fs directory names = .ok files →
      (∀ file ∈ files, shownPath directory file = .ok (directory.fromNameOf file)) ∧
      (files.map fun file => (directory.fromNameOf file).text).Nodup ∧
      ∀ sources rules severities, loadSources fs directory files = (sources, none) →
        let result := checkSources sources rules severities
        sources.map (·.path) = files.map (fun file => (directory.fromNameOf file).text) ∧
        result.groups = (sources.map fun source => (source.path, source.findings rules severities)).filter
          (fun group => !group.2.isEmpty) ∧
        result.groups.flatMap (·.2) = result.findings) ∧
    (RawText.ofString "*" ∈ names → (∃ files, discover fs directory names = .ok files) ∨
      ∃ children chain, fs.entry? directory = .ok (some (.directory children)) ∧
        OutOfReach fs directory (.directory children) chain ∧
        discover fs directory names = .error (.access ⟨.nameTooLong, directory.below chain⟩)) := by
  intro directory
  have shown {files : List Path} (found : discover fs directory names = .ok files) {file : Path} (hf : file ∈ files) :
      ∃ below, file = ⟨directory.slashes, directory.parts ++ below⟩ ∧
        shownPath directory file = .ok (directory.fromNameOf file) := by
    obtain ⟨below, rfl⟩ := below_of_discover tree asked found hf
    exact ⟨below, rfl, shownPath_of_append rfl rfl⟩
  refine ⟨fun files found file hf => ?_, fun star files found => ?_, fun star => ?_⟩
  · obtain ⟨below, rfl, shown⟩ := shown found hf
    exact ⟨below, rfl, shown.trans (congrArg Except.ok (Path.fromNameOf_of_append rfl))⟩
  · obtain ⟨place, children, -, standing, ⟨-, walked⟩ | ⟨unasked, -⟩⟩ := discover_eq_ok_iff.mp found
    · have distinct := nodup_shown_of_walk tree named standing walked
      have own : ∀ file ∈ files, shownPath directory file = .ok (directory.fromNameOf file) := by
        intro file hf
        obtain ⟨_, -, shown⟩ := shown found hf
        exact shown
      refine ⟨own, distinct, fun sources rules severities loaded => ?_⟩
      have paths := map_path_of_loadSources own loaded
      have distinct : (sources.map (·.path)).Nodup := by
        rw [paths]
        exact distinct
      exact ⟨paths, groups_checkSources_of_nodup distinct rules severities,
        flatMap_groups_checkSources distinct rules severities⟩
    · exact absurd star unasked
  · obtain ⟨place, located, here⟩ := FileSystem.isDirectory_eq_true_iff.mp there
    obtain ⟨children, standing⟩ := Entry.nodeAt?_eq_directory_iff.mp here
    have root := FileSystem.entry?_eq_some_iff.mpr ⟨place, located, standing⟩
    rw [discover_star root star]
    rcases walk_cases (tree.get? standing) fs directory "" with ⟨files, walked, -⟩ | ⟨chain, out, -, failed⟩
    · exact Or.inl ⟨files, by rw [walked]; rfl⟩
    · exact Or.inr ⟨children, chain, root, out, by rw [failed]; rfl⟩

/-- The same name in two directories, and a source directory with a double dot in its path. -/
theorem shown_paths_same_name :
    let text : RawText := "src/../src/"
    let children : List (String × Entry) := [("a.sol", .file (Utf8.encode ['\t'])),
      ("b", .directory [("a.sol", .file (Utf8.encode ['\t']))])]
    let fs : FileSystem := ⟨.directory [("src", .directory children)], []⟩
    let sources : List Source := [⟨"src/a.sol", "\t"⟩, ⟨"src/b/a.sol", "\t"⟩]
    fs.root.Distinct ∧ fs.root.WellNamed ∧ fs.isDirectory (.ofText text) = .ok true ∧
      ∃ files, discover fs (.ofText text) [RawText.ofString "*"] = .ok files ∧
        loadSources fs (.ofText text) files = (sources, none) ∧
        (checkSources sources .builtin {}).groups.map (·.1) = ["src/a.sol", "src/b/a.sol"] ∧
        (checkSources sources .builtin {}).groups.flatMap (·.2) = (checkSources sources .builtin {}).findings := by
  intro text children fs sources
  have tree : fs.root.Distinct := by
    refine .directory (by decide) fun child hc => ?_
    obtain rfl := List.mem_singleton.mp hc
    refine .directory (by decide) fun child hc => ?_
    simp only [children, List.mem_cons, List.not_mem_nil, or_false] at hc
    rcases hc with rfl | rfl
    · exact .file _
    · exact .directory (by decide) fun child hc => List.mem_singleton.mp hc ▸ .file _
  have named : fs.root.WellNamed := by
    refine Entry.wellNamed_directory fun child hc => ?_
    obtain rfl := List.mem_singleton.mp hc
    refine ⟨by decide, Entry.wellNamed_directory fun child hc => ?_⟩
    simp only [children, List.mem_cons, List.not_mem_nil, or_false] at hc
    rcases hc with rfl | rfl
    · exact ⟨by decide, Entry.wellNamed_file _⟩
    · refine ⟨by decide, Entry.wellNamed_directory fun child hc => ?_⟩
      obtain rfl := List.mem_singleton.mp hc
      exact ⟨by decide, Entry.wellNamed_file _⟩
  have there : fs.isDirectory (.ofText text) = .ok true := by decide +kernel
  have star : RawText.ofString "*" ∈ [RawText.ofString "*"] := by decide
  obtain ⟨-, walked, -⟩ := shown_paths fs text [RawText.ofString "*"] tree named there (Or.inl star)
  have sorted : (walkChildren fs (.ofText text) children).Pairwise fun a b => (!decide (b.1 < a.1)) = true := by
    decide +kernel
  have found : discover fs (.ofText text) [RawText.ofString "*"] =
      .ok [.ofText "src/../src/a.sol", .ofText "src/../src/b/a.sol"] := by
    refine discover_eq_ok_iff.mpr ⟨["src"], children, by decide +kernel, rfl, Or.inl ⟨star, ?_⟩⟩
    rw [walk, inNameOrder, List.mergeSort_of_pairwise sorted]
    decide +kernel
  obtain ⟨-, -, checked⟩ := walked star _ found
  have loaded : loadSources fs (.ofText text) [.ofText "src/../src/a.sol", .ofText "src/../src/b/a.sol"] =
      (sources, none) :=
    Prod.ext (by decide +kernel) (Option.isNone_iff_eq_none.mp (by decide +kernel))
  obtain ⟨-, -, all⟩ := checked sources .builtin {} loaded
  exact ⟨tree, named, there, _, found, loaded, by decide +kernel, all⟩

end SolidityLint

import SolidityLint.Proofs.Files.Agreement

/-! Discovery by names. A walk of the source directory and a lookup by names are two ways to the same files: whoever
    asks by name for all that a walk finds gets the same paths in the same order, also for files in folders, for a
    folder that is named like a file, and for a file whose name is the star that asks for a walk. A walk has looked up
    all that it finds, so no path is too long for the names. Of names that are looked up, the first one without a file
    decides the failure. -/

namespace SolidityLint

/-! ### Paths that are read from joined names -/

theorem Text.joinWith_concat_append {α : Type} (separator : α) (front : List (List α)) (piece ending : List α) :
    joinWith separator (front ++ [piece ++ ending]) = joinWith separator (front ++ [piece]) ++ ending := by
  induction front with
  | nil => rfl
  | cons first rest ih =>
    cases rest with
    | nil => simp [joinWith]
    | cons next others =>
      simp only [List.cons_append, joinWith_cons_cons] at ih ⊢
      rw [ih, List.append_assoc, List.cons_append]

namespace Path

/-- Whether a part of a path is kept when the path is read from its text. -/
def IsKept (part : RawText) : Prop :=
  IsPart part ∧ part ≠ RawText.ofString "."

theorem isKept_ofString {name : String} (h : IsFileName name) : IsKept (RawText.ofString name) :=
  ⟨isPart_ofString h, fun same => h.ne_dot (RawText.ofString_injective same)⟩

variable {parts : List RawText}

theorem partsOf_joined (some : parts ≠ []) (kept : ∀ part ∈ parts, IsKept part) :
    partsOf (RawText.joined "/" parts) = parts := by
  have slashFree : ∀ piece ∈ parts.map RawText.points, CodePoint.char '/' ∉ piece :=
    List.forall_mem_map.mpr fun part hp => (kept part hp).1.2
  have joined : (RawText.joined "/" parts).points = Text.joinWith (.char '/') (parts.map RawText.points) :=
    RawText.points_joined _ _
  have pieces : Text.splitOn (.char '/') (RawText.joined "/" parts).points = parts.map RawText.points := by
    rw [joined, Text.splitOn_joinWith_eq_flatMap _ (by simpa using some), Text.flatMap_splitOn_eq_self slashFree]
  rw [partsOf, pieces, List.map_map, show RawText.mk ∘ RawText.points = id from rfl, List.map_id, List.filter_eq_self]
  intro part hp
  have ne_empty : part.isEmpty = false :=
    Bool.eq_false_iff.mpr fun h => (kept part hp).1.1 (List.isEmpty_iff.mp h)
  simp [ne_empty, (kept part hp).2]

theorem slashesOf_joined (some : parts ≠ []) (kept : ∀ part ∈ parts, IsKept part) :
    slashesOf (RawText.joined "/" parts) = 0 := by
  have joined : (RawText.joined "/" parts).points = Text.joinWith (.char '/') (parts.map RawText.points) :=
    RawText.points_joined _ _
  rw [slashesOf, joined]
  cases parts with
  | nil => exact absurd rfl some
  | cons part rest =>
    obtain ⟨ne_nil, slash_notMem⟩ := (kept part List.mem_cons_self).1
    obtain ⟨first, others, spelled⟩ := List.exists_cons_of_ne_nil ne_nil
    have other : first ≠ .char '/' := fun slash => slash_notMem (spelled ▸ slash ▸ List.mem_cons_self)
    cases rest <;> simp [Text.joinWith, spelled, other]

/-- Parts with slashes between them are read as the path that they are. -/
theorem ofText_joined (some : parts ≠ []) (kept : ∀ part ∈ parts, IsKept part) :
    ofText (RawText.joined "/" parts) = ⟨0, parts⟩ := by
  rw [ofText, partsOf_joined some kept, slashesOf_joined some kept]

/-- The text of a relative path is read as the path. -/
theorem ofText_text {path : Path} (relative : path.slashes = 0) (some : path.parts ≠ [])
    (kept : ∀ part ∈ path.parts, IsKept part) : ofText path.text = path := by
  have same : path.text = RawText.joined "/" path.parts :=
    RawText.points_injective ((points_text_of_relative relative some fun part hp => (kept part hp).1).trans
      (RawText.points_joined _ _).symm)
  rw [same, ofText_joined some kept, ← relative]

end Path

/-! ### Looking for a file -/

namespace FileSystem

theorem isFile_eq_true_iff_entry? {fs : FileSystem} {path : Path} :
    fs.isFile path = .ok true ↔ ∃ content, fs.entry? path = .ok (some (.file content)) := by
  unfold isFile
  cases fs.entry? path with
  | error e => simp [Except.map]
  | ok entry =>
    cases entry with
    | none => simp [Except.map]
    | some found => cases found <;> simp [Except.map, Entry.isFile, Entry.isDirectory]

/-- Only a path that is too long keeps a file from being looked for. -/
theorem isFile_eq_error_iff {fs : FileSystem} {path : Path} {e : FileError} :
    fs.isFile path = .error e ↔ fs.locate path = .error .nameTooLong ∧ e = ⟨.nameTooLong, path⟩ := by
  rw [isFile, map_eq_error_iff, entry?_eq_error_iff]

end FileSystem

namespace Discovery

/-- The name that asks for a file: its path below the source directory without the ending. -/
def nameFor (directory file : Path) : RawText :=
  let below := (RawText.joined "/" (file.parts.drop directory.parts.length)).points
  ⟨below.take (below.length - sourceEnding.length)⟩

theorem nameFor_append_ending (directory : Path) (folders : List String) (stem : String) :
    nameFor directory (directory.below (folders ++ [stem ++ ".sol"])) ++ RawText.ofString sourceEnding =
      RawText.joined "/" ((folders ++ [stem ++ ".sol"]).map RawText.ofString) := by
  have drop : (directory.below (folders ++ [stem ++ ".sol"])).parts.drop directory.parts.length =
      (folders ++ [stem ++ ".sol"]).map RawText.ofString := List.drop_left
  have ending : (RawText.ofString (stem ++ ".sol")).points =
      (RawText.ofString stem).points ++ (RawText.ofString sourceEnding).points := by
    simp [RawText.ofString, RawText.ofChars, sourceEnding]
  have spelled : (RawText.joined "/" ((folders ++ [stem ++ ".sol"]).map RawText.ofString)).points =
      Text.joinWith (.char '/') ((folders ++ [stem]).map fun name => (RawText.ofString name).points) ++
        (RawText.ofString sourceEnding).points := by
    rw [show (RawText.joined "/" ((folders ++ [stem ++ ".sol"]).map RawText.ofString)).points = _ from
        RawText.points_joined _ _, List.map_map, List.map_append, List.map_append, List.map_singleton,
      List.map_singleton, Function.comp_apply, ending, Text.joinWith_concat_append]
    rfl
  refine RawText.points_injective ?_
  rw [RawText.points_append, nameFor, drop]
  dsimp only
  rw [spelled, List.length_append]
  have four : (RawText.ofString sourceEnding).points.length = sourceEnding.length := rfl
  rw [four, Nat.add_sub_cancel, List.take_left]

/-- A name asks for the file that it was made for. -/
theorem contractPath_nameFor {directory : Path} {folders : List String} {stem : String}
    (named : ∀ name ∈ folders ++ [stem ++ ".sol"], IsFileName name) :
    contractPath directory (nameFor directory (directory.below (folders ++ [stem ++ ".sol"]))) =
      directory.below (folders ++ [stem ++ ".sol"]) := by
  have kept : ∀ part ∈ (folders ++ [stem ++ ".sol"]).map RawText.ofString, Path.IsKept part :=
    List.forall_mem_map.mpr fun name hn => Path.isKept_ofString (named name hn)
  rw [contractPath, nameFor_append_ending, Path.ofText_joined (by simp) kept]
  rfl

/-! ### Names that are looked up -/

section

variable {fs : FileSystem} {directory : Path} {name : RawText} {rest : List RawText}

theorem named_cons_of_file (h : fs.isFile (contractPath directory name) = .ok true) :
    named fs directory (name :: rest) = (named fs directory rest).map (contractPath directory name :: ·) := by
  rw [named, h]
  rfl

theorem named_cons_of_no_file (h : fs.isFile (contractPath directory name) = .ok false) :
    named fs directory (name :: rest) = .error (.contractMissing (contractPath directory name) directory) := by
  rw [named, h]
  rfl

theorem named_cons_of_error {e : FileError} (h : fs.isFile (contractPath directory name) = .error e) :
    named fs directory (name :: rest) = .error (.access e) := by
  rw [named, h]

end

/-- Of names that are looked up either each one has its file, or the first without one decides the failure. -/
theorem named_cases (fs : FileSystem) (directory : Path) (names : List RawText) :
    (named fs directory names = .ok (names.map (contractPath directory)) ∧
        ∀ name ∈ names, fs.isFile (contractPath directory name) = .ok true) ∨
      ∃ before name after, names = before ++ name :: after ∧
        (∀ other ∈ before, fs.isFile (contractPath directory other) = .ok true) ∧
        (fs.isFile (contractPath directory name) = .ok false ∧
            named fs directory names = .error (.contractMissing (contractPath directory name) directory) ∨
          ∃ e, fs.isFile (contractPath directory name) = .error e ∧ named fs directory names = .error (.access e)) := by
  induction names with
  | nil => exact Or.inl ⟨rfl, List.forall_mem_nil _⟩
  | cons name rest ih =>
    cases found : fs.isFile (contractPath directory name) with
    | error e =>
      exact Or.inr ⟨[], name, rest, rfl, List.forall_mem_nil _, Or.inr ⟨e, found, named_cons_of_error found⟩⟩
    | ok isThere =>
      cases isThere with
      | false =>
        exact Or.inr ⟨[], name, rest, rfl, List.forall_mem_nil _, Or.inl ⟨found, named_cons_of_no_file found⟩⟩
      | true =>
        rw [named_cons_of_file found]
        rcases ih with ⟨others, all⟩ | ⟨before, bad, after, rfl, good, fault⟩
        · rw [others]
          exact Or.inl ⟨rfl, List.forall_mem_cons.mpr ⟨found, all⟩⟩
        · refine Or.inr ⟨name :: before, bad, after, rfl, List.forall_mem_cons.mpr ⟨found, good⟩, ?_⟩
          rcases fault with ⟨none, failed⟩ | ⟨e, none, failed⟩
          · exact Or.inl ⟨none, by rw [failed]; rfl⟩
          · exact Or.inr ⟨e, none, by rw [failed]; rfl⟩

/-! ### Files that a walk finds -/

theorem exists_stem_of_mem_walk {fs : FileSystem} {directory file : Path} {children : List (String × Entry)}
    {files : List Path} (distinct : (Entry.directory children).Distinct)
    (walked : walk fs directory "" (.directory children) = .ok files) (hf : file ∈ files) :
    ∃ folders stem content, file = directory.below (folders ++ [stem ++ ".sol"]) ∧
      (Entry.directory children).get? (folders ++ [stem ++ ".sol"]) = some (.file content) := by
  obtain ⟨chain, content, rfl, standing, ending⟩ := (mem_of_walk distinct walked file).mp hf
  obtain ⟨stem, -, last⟩ := hasEnding_iff.mp ending
  rcases List.eq_nil_or_concat chain with rfl | ⟨folders, name, rfl⟩
  · cases standing
  · rw [List.concat_eq_append] at standing last ⊢
    rw [List.getLastD_concat] at last
    subst last
    exact ⟨folders, stem, content, rfl, standing⟩

end Discovery

open Discovery

/-! ### Both ways to files -/

section

variable {fs : FileSystem} {directory file : Path} {place : List String} {children : List (String × Entry)}
  {names : List RawText} {files : List Path}

theorem discover_eq_named (located : fs.locate directory = .ok place)
    (there : fs.root.get? place = some (.directory children)) (star : RawText.ofString wildcard ∉ names) :
    discover fs directory names = named fs directory names := by
  rw [discover, FileSystem.entry?_eq_some_iff.mpr ⟨place, located, there⟩]
  dsimp only
  rw [if_neg fun h => star (List.contains_iff_mem.mp h)]

/-- A file that a walk finds is asked for by its name, and there it is. -/
theorem asked_of_mem_walk (tree : fs.root.Distinct) (named : fs.root.WellNamed)
    (located : fs.locate directory = .ok place) (there : fs.root.get? place = some (.directory children))
    (walked : walk fs directory "" (.directory children) = .ok files) (hf : file ∈ files) :
    contractPath directory (nameFor directory file) = file ∧ fs.isFile file = .ok true := by
  obtain ⟨folders, stem, content, rfl, standing⟩ := exists_stem_of_mem_walk (tree.get? there) walked hf
  rw [Entry.get?_of_below there] at standing
  have listed : ∀ name ∈ folders ++ [stem ++ ".sol"], IsFileName name := fun name hn =>
    named _ (by rw [standing]; rfl) name (List.mem_append_right place hn)
  have leads := locate_of_walk tree named located there walked (by rw [standing]; rfl)
  exact ⟨contractPath_nameFor listed,
    FileSystem.isFile_eq_true_iff.mpr ⟨_, content, leads, Entry.nodeAt?_eq_file_iff.mpr standing⟩⟩

theorem discover_names_of_walk (tree : fs.root.Distinct) (named : fs.root.WellNamed)
    (located : fs.locate directory = .ok place) (there : fs.root.get? place = some (.directory children))
    (walked : walk fs directory "" (.directory children) = .ok files) :
    discover fs directory (files.map (nameFor directory)) = .ok files := by
  refine discover_eq_ok_iff.mpr ⟨place, children, located, there, ?_⟩
  by_cases star : RawText.ofString wildcard ∈ files.map (nameFor directory)
  · -- A file may be named like the star itself; then the names ask for a walk.
    exact Or.inl ⟨star, walked⟩
  · have asked : ∀ file ∈ files, contractPath directory (nameFor directory file) = file ∧ fs.isFile file = .ok true :=
      fun file => asked_of_mem_walk tree named located there walked
    have paths : (files.map (nameFor directory)).map (contractPath directory) = files := by
      rw [List.map_map]
      exact (List.map_congr_left fun file hf => (asked file hf).1).trans (List.map_id files)
    refine Or.inr ⟨star, named_eq_ok_iff.mpr ⟨paths.symm, List.forall_mem_map.mpr fun file hf => ?_⟩⟩
    rw [(asked file hf).1]
    exact (asked file hf).2

/-- The path that a name stands for below a directory. -/
def Discovery.pathBelow (directory : Path) (name : RawText) : Path :=
  ⟨directory.slashes, directory.parts ++ (Path.ofText (name ++ sourceEnding)).parts⟩

theorem contractPath_of_relative {name : RawText} (relative : (Path.ofText (name ++ sourceEnding)).slashes = 0) :
    contractPath directory name = pathBelow directory name := by
  rw [contractPath, Path.join, if_pos relative]
  rfl

theorem discover_relative_names (located : fs.locate directory = .ok place)
    (there : fs.root.get? place = some (.directory children)) (star : RawText.ofString wildcard ∉ names)
    (relative : ∀ name ∈ names, (Path.ofText (name ++ sourceEnding)).slashes = 0) :
    (discover fs directory names = .ok (names.map (pathBelow directory)) ∧
      ∀ name ∈ names, fs.isFile (pathBelow directory name) = .ok true) ∨
    ∃ before name after, names = before ++ name :: after ∧
      (∀ other ∈ before, fs.isFile (pathBelow directory other) = .ok true) ∧
      fs.isFile (pathBelow directory name) ≠ .ok true ∧
      (fs.locate (pathBelow directory name) ≠ .error .nameTooLong ∧
          discover fs directory names = .error (.contractMissing (pathBelow directory name) directory) ∨
        fs.locate (pathBelow directory name) = .error .nameTooLong ∧
          discover fs directory names = .error (.access ⟨.nameTooLong, pathBelow directory name⟩)) := by
  have paths : ∀ name ∈ names, contractPath directory name = pathBelow directory name := fun name hn =>
    contractPath_of_relative (relative name hn)
  rw [discover_eq_named located there star]
  rcases named_cases fs directory names with ⟨all, found⟩ | ⟨before, name, after, rfl, good, fault⟩
  · refine Or.inl ⟨all.trans (congrArg Except.ok (List.map_congr_left paths)), fun name hn => ?_⟩
    rw [← paths name hn]
    exact found name hn
  · have own := paths name (List.mem_append_right before List.mem_cons_self)
    rw [own] at fault
    refine Or.inr ⟨before, name, after, rfl, fun other ho => ?_, ?_⟩
    · rw [← paths other (List.mem_append_left _ ho)]
      exact good other ho
    · rcases fault with ⟨none, failed⟩ | ⟨e, none, failed⟩
      · refine ⟨by rw [none]; nofun, Or.inl ⟨fun long => ?_, failed⟩⟩
        rw [FileSystem.isFile_eq_error_iff.mpr ⟨long, rfl⟩] at none
        cases none
      · obtain ⟨long, rfl⟩ := FileSystem.isFile_eq_error_iff.mp none
        exact ⟨by rw [none]; nofun, Or.inr ⟨long, failed⟩⟩

end

/-- Whoever asks by name for all files that a walk of a source directory finds gets the same paths; only an entry whose
    path is too long keeps the walk from its end. Of names that are no absolute paths each one stands for a path below
    the source directory: the answer is the list of these paths if there is a file at each of them, and else the first
    one without a file is the failure. -/
theorem discover_by_names (fs : FileSystem) (directory : Path) (tree : fs.root.Distinct) (named : fs.root.WellNamed)
    (there : fs.isDirectory directory = .ok true) :
    ((∃ files, discover fs directory [RawText.ofString "*"] = .ok files ∧
        discover fs directory (files.map (nameFor directory)) = .ok files) ∨
      ∃ children chain, fs.entry? directory = .ok (some (.directory children)) ∧
        OutOfReach fs directory (.directory children) chain ∧
        discover fs directory [RawText.ofString "*"] = .error (.access ⟨.nameTooLong, directory.below chain⟩)) ∧
    ∀ names, RawText.ofString "*" ∉ names → (∀ name ∈ names, (Path.ofText (name ++ ".sol")).slashes = 0) →
      (discover fs directory names = .ok (names.map (pathBelow directory)) ∧
        ∀ name ∈ names, ∃ content, fs.entry? (pathBelow directory name) = .ok (some (.file content))) ∨
      ∃ before name after, names = before ++ name :: after ∧
        (∀ other ∈ before, ∃ content, fs.entry? (pathBelow directory other) = .ok (some (.file content))) ∧
        (∀ content, fs.entry? (pathBelow directory name) ≠ .ok (some (.file content))) ∧
        (fs.locate (pathBelow directory name) ≠ .error .nameTooLong ∧
            discover fs directory names = .error (.contractMissing (pathBelow directory name) directory) ∨
          fs.locate (pathBelow directory name) = .error .nameTooLong ∧
            discover fs directory names = .error (.access ⟨.nameTooLong, pathBelow directory name⟩)) := by
  obtain ⟨place, located, here⟩ := FileSystem.isDirectory_eq_true_iff.mp there
  obtain ⟨children, standing⟩ := Entry.nodeAt?_eq_directory_iff.mp here
  have root := FileSystem.entry?_eq_some_iff.mpr ⟨place, located, standing⟩
  have star : RawText.ofString "*" ∈ [RawText.ofString "*"] := List.mem_cons_self
  refine ⟨?_, fun names star relative => ?_⟩
  · rw [discover_star root star]
    rcases walk_cases (tree.get? standing) fs directory "" with ⟨files, walked, -⟩ | ⟨chain, out, -, failed⟩
    · exact Or.inl ⟨files, by rw [walked]; rfl, discover_names_of_walk tree named located standing walked⟩
    · exact Or.inr ⟨children, chain, root, out, by rw [failed]; rfl⟩
  · have verdict := discover_relative_names located standing star relative
    simp only [FileSystem.isFile_eq_true_iff_entry?, not_exists, ne_eq] at verdict ⊢
    exact verdict

/-- A file in a folder, and a folder that is named like a file. -/
theorem discover_by_names_folders :
    let children : List (String × Entry) :=
      [("a", .directory [("b.sol", .file [])]), ("a.sol", .file []), ("x.sol", .directory [("y.sol", .file [])])]
    let fs : FileSystem := ⟨.directory [("src", .directory children)], []⟩
    let directory : Path := .ofText "src"
    let files : List Path := [.ofText "src/a/b.sol", .ofText "src/a.sol", .ofText "src/x.sol/y.sol"]
    let folder := [RawText.ofString "a/b", RawText.ofString "x"]
    fs.root.Distinct ∧ fs.root.WellNamed ∧ fs.isDirectory directory = .ok true ∧
      discover fs directory [RawText.ofString "*"] = .ok files ∧
      discover fs directory (["a/b", "a", "x.sol/y"].map RawText.ofString) = .ok files ∧
      RawText.ofString "*" ∉ folder ∧ (∀ name ∈ folder, (Path.ofText (name ++ ".sol")).slashes = 0) ∧
      discover fs directory folder = .error (.contractMissing (.ofText "src/x.sol") directory) := by
  intro children fs directory files folder
  have tree : fs.root.Distinct := by
    refine .directory (by decide) fun child hc => ?_
    obtain rfl := List.mem_singleton.mp hc
    refine .directory (by decide) fun child hc => ?_
    simp only [children, List.mem_cons, List.not_mem_nil, or_false] at hc
    rcases hc with rfl | rfl | rfl
    · exact .directory (by decide) fun child hc => List.mem_singleton.mp hc ▸ .file []
    · exact .file []
    · exact .directory (by decide) fun child hc => List.mem_singleton.mp hc ▸ .file []
  have named : fs.root.WellNamed := by
    have leaf {name : String} (own : IsFileName name) : (Entry.directory [(name, .file [])]).WellNamed :=
      Entry.wellNamed_directory fun child hc => by
        obtain rfl := List.mem_singleton.mp hc
        exact ⟨own, Entry.wellNamed_file []⟩
    refine Entry.wellNamed_directory fun child hc => ?_
    obtain rfl := List.mem_singleton.mp hc
    refine ⟨by decide, Entry.wellNamed_directory fun child hc => ?_⟩
    simp only [children, List.mem_cons, List.not_mem_nil, or_false] at hc
    rcases hc with rfl | rfl | rfl
    · exact ⟨by decide, leaf (by decide)⟩
    · exact ⟨by decide, Entry.wellNamed_file []⟩
    · exact ⟨by decide, leaf (by decide)⟩
  have there : fs.isDirectory directory = .ok true := by decide +kernel
  obtain ⟨both, looked⟩ := discover_by_names fs directory tree named there
  have sorted : (walkChildren fs directory children).Pairwise fun a b => (!decide (b.1 < a.1)) = true := by
    decide +kernel
  have walked : discover fs directory [RawText.ofString "*"] = .ok files := by
    refine discover_eq_ok_iff.mpr ⟨["src"], children, by decide +kernel, rfl, Or.inl ⟨List.mem_cons_self, ?_⟩⟩
    rw [walk, inNameOrder, List.mergeSort_of_pairwise sorted]
    decide +kernel
  have asked : discover fs directory (["a/b", "a", "x.sol/y"].map RawText.ofString) = .ok files := by
    rcases both with ⟨all, found, asked⟩ | ⟨_, _, -, -, failed⟩
    · obtain rfl := Except.ok.inj (walked.symm.trans found)
      have names : files.map (nameFor directory) = ["a/b", "a", "x.sol/y"].map RawText.ofString := by decide +kernel
      rwa [names] at asked
    · cases walked.symm.trans failed
  have star : RawText.ofString "*" ∉ folder := by decide
  have relative : ∀ name ∈ folder, (Path.ofText (name ++ ".sol")).slashes = 0 := by decide
  have first : fs.isFile (pathBelow directory "a/b") = .ok true := by decide +kernel
  have second : fs.isFile (pathBelow directory "x") = .ok false := by decide +kernel
  have missing : discover fs directory folder = .error (.contractMissing (.ofText "src/x.sol") directory) := by
    rcases looked folder star relative with ⟨-, all⟩ | ⟨before, name, after, split, -, none, fault⟩
    · have known := FileSystem.isFile_eq_true_iff_entry?.mpr (all "x" (by decide))
      rw [second] at known
      cases known
    · have listed : name ∈ folder := split ▸ List.mem_append_right before List.mem_cons_self
      simp only [folder, List.mem_cons, List.not_mem_nil, or_false] at listed
      rcases listed with rfl | rfl
      · obtain ⟨content, known⟩ := FileSystem.isFile_eq_true_iff_entry?.mp first
        exact absurd known (none content)
      · rcases fault with ⟨-, failed⟩ | ⟨long, -⟩
        · exact failed
        · rw [FileSystem.isFile_eq_error_iff.mpr ⟨long, rfl⟩] at second
          cases second
  exact ⟨tree, named, there, walked, asked, star, relative, missing⟩

/-- A name of more bytes than a file name may have cannot be looked up: the failure is that of the path, and not that
    the contract is missing. -/
theorem discover_long_name :
    let fs : FileSystem := ⟨.directory [("src", .directory [])], []⟩
    let directory : Path := .ofText "src"
    let name : RawText := .ofChars (List.replicate 252 'a')
    fs.isDirectory directory = .ok true ∧ RawText.ofString "*" ∉ [name] ∧
      (Path.ofText (name ++ ".sol")).slashes = 0 ∧
      (∀ files, discover fs directory [name] ≠ .ok files) ∧
      ∀ file folder, discover fs directory [name] ≠ .error (.contractMissing file folder) := by
  intro fs directory name
  have long : discover fs directory [name] = .error (.access ⟨.nameTooLong, contractPath directory name⟩) := by
    have refused : fs.isFile (contractPath directory name) = .error ⟨.nameTooLong, contractPath directory name⟩ := by
      decide +kernel
    have located : fs.locate directory = .ok ["src"] := by decide +kernel
    have there : fs.root.get? ["src"] = some (.directory []) := rfl
    rw [discover_eq_named located there (by decide +kernel), named_cons_of_error refused]
  refine ⟨by decide +kernel, by decide +kernel, by decide +kernel, fun files => ?_, fun file folder => ?_⟩
  · rw [long]
    nofun
  · rw [long]
    nofun

end SolidityLint

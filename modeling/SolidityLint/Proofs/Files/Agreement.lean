import SolidityLint.Files.Loading
import SolidityLint.Proofs.Files.Writing

/-! What is found and read in a tree after a file was written in it. A file is the same as before unless the written
    one is there (`FileSystem.Leaves.sameFile`), new directories on the way have no files in them but that one, and so
    the same files are found: by their names, and by a walk unless the written file has a name like theirs and is
    below the source directory. But a walk looks up what is new too, and the path of that may be too long for it
    (`Discovery.FailsAtNew`). -/

namespace SolidityLint

/-! ### Walks of two trees -/

theorem Path.Before.asymm {directory first second : Path} (h : Before directory first second) :
    ¬Before directory second first := by
  rintro ⟨late, early, rfl, rfl, hl⟩
  obtain ⟨names, names', he, he', hl'⟩ := h
  obtain rfl := Path.below_injective he
  obtain rfl := Path.below_injective he'
  exact lt_asymm hl hl'

namespace Discovery

/-- Walks of two trees with files of the ending at the same places find the same, if they come to their end. -/
theorem eq_of_walks {tree tree' : Entry} (h : tree.Distinct) (h' : tree'.Distinct) {fs fs' : FileSystem} {path : Path}
    {name : String} {files files' : List Path} (walked : walk fs path name tree = .ok files)
    (walked' : walk fs' path name tree' = .ok files')
    (same : ∀ names, hasEnding sourceEnding (names.getLastD name) = true →
      ((∃ content, tree.get? names = some (.file content)) ↔ ∃ content, tree'.get? names = some (.file content))) :
    files = files' := by
  have sorted := pairwise_of_walk h walked
  have sorted' := pairwise_of_walk h' walked'
  have members (file : Path) : file ∈ files ↔ file ∈ files' := by
    rw [mem_of_walk h walked, mem_of_walk h' walked']
    constructor
    · rintro ⟨names, content, rfl, there, ending⟩
      obtain ⟨content', there⟩ := (same names ending).mp ⟨content, there⟩
      exact ⟨names, content', rfl, there, ending⟩
    · rintro ⟨names, content, rfl, there, ending⟩
      obtain ⟨content', there⟩ := (same names ending).mpr ⟨content, there⟩
      exact ⟨names, content', rfl, there, ending⟩
  have perm := (List.perm_ext_iff_of_nodup (List.nodup_iff_pairwise_ne.mpr (sorted.imp Path.Before.ne))
    (List.nodup_iff_pairwise_ne.mpr (sorted'.imp Path.Before.ne))).mpr members
  exact perm.eq_of_pairwise (fun _ _ _ _ hab hba => absurd hba hab.asymm) sorted sorted'

end Discovery

namespace FileSystem

/-! ### Files in both trees -/

/-- A path leads to the same file in two trees. -/
def SameFile (before after : FileSystem) (path : Path) : Prop :=
  ∃ place content, before.locate path = .ok place ∧ before.root.nodeAt? place = some (.file content) ∧
    after.locate path = .ok place ∧ after.root.nodeAt? place = some (.file content)

namespace SameFile

variable {before after : FileSystem} {path : Path}

theorem read (h : SameFile before after path) : ∃ content, before.read path = .ok content ∧ after.read path = .ok content := by
  obtain ⟨place, content, located, there, located', there'⟩ := h
  exact ⟨content, read_eq_ok_iff.mpr ⟨place, located, there⟩, read_eq_ok_iff.mpr ⟨place, located', there'⟩⟩

theorem isFile (h : SameFile before after path) : after.isFile path = .ok true := by
  obtain ⟨place, content, -, -, located, there⟩ := h
  exact isFile_eq_true_iff.mpr ⟨place, content, located, there⟩

end SameFile

theorem exists?_of_located {fs : FileSystem} {path : Path} {place : List String} (located : fs.locate path = .ok place) :
    fs.exists? path = .ok (fs.root.nodeAt? place).isSome := by
  rw [exists?, entry?_of_located located, Entry.nodeAt?, Option.isSome_map]
  rfl

theorem SameFile.exists? {before after : FileSystem} {path : Path} (h : SameFile before after path) :
    before.exists? path = .ok true ∧ after.exists? path = .ok true := by
  obtain ⟨place, content, located, there, located', there'⟩ := h
  rw [exists?_of_located located, exists?_of_located located', there, there']
  exact ⟨rfl, rfl⟩

namespace Leaves

variable {before after : FileSystem} {path : Path} {content : List UInt8}

theorem file_iff (h : Leaves before after path content) {place : List String} (apart : after.locate path ≠ .ok place)
    {other : List UInt8} :
    after.root.nodeAt? place = some (.file other) ↔ before.root.nodeAt? place = some (.file other) := by
  rcases h.nodes place with same | ⟨absent, made, -⟩ | ⟨-, -, located⟩
  · rw [same]
  · rw [absent, made]
    exact ⟨nofun, nofun⟩
  · exact absurd located apart

theorem sameFile (h : Leaves before after path content) {other : Path} {place : List String} {kept : List UInt8}
    (located : before.locate other = .ok place) (there : before.root.nodeAt? place = some (.file kept))
    (apart : after.locate path ≠ .ok place) : SameFile before after other :=
  ⟨place, kept, located, there, h.grows.locate located, (h.file_iff apart).mpr there⟩

end Leaves

end FileSystem

/-! ### Discovery -/

namespace Discovery

theorem named_eq_ok_iff {fs : FileSystem} {directory : Path} {names : List RawText} {files : List Path} :
    named fs directory names = .ok files ↔ files = names.map (contractPath directory) ∧
      ∀ name ∈ names, fs.isFile (contractPath directory name) = .ok true := by
  induction names generalizing files with
  | nil => simp [named, eq_comm]
  | cons name rest ih =>
    rw [named, List.forall_mem_cons, List.map_cons]
    cases fs.isFile (contractPath directory name) with
    | error e => exact ⟨nofun, nofun⟩
    | ok isThere =>
      cases isThere with
      | false => exact ⟨nofun, nofun⟩
      | true =>
        dsimp only
        rw [if_pos rfl]
        constructor
        · intro h
          cases found : named fs directory rest with
          | error e => rw [found] at h; cases h
          | ok others =>
            rw [found] at h
            obtain ⟨rfl, all⟩ := ih.mp found
            exact ⟨(Except.ok.inj h).symm, rfl, all⟩
        · rintro ⟨rfl, -, all⟩
          rw [ih.mpr ⟨rfl, all⟩]
          rfl

end Discovery

open Discovery

theorem discover_eq_ok_iff {fs : FileSystem} {directory : Path} {names : List RawText} {files : List Path} :
    discover fs directory names = .ok files ↔
      ∃ place children, fs.locate directory = .ok place ∧ fs.root.get? place = some (.directory children) ∧
        (RawText.ofString wildcard ∈ names ∧ walk fs directory "" (.directory children) = .ok files ∨
          RawText.ofString wildcard ∉ names ∧ named fs directory names = .ok files) := by
  unfold discover
  constructor
  · intro h
    split at h
    · cases h
    · rename_i children root
      obtain ⟨place, located, there⟩ := FileSystem.entry?_eq_some_iff.mp root
      refine ⟨place, children, located, there, ?_⟩
      split at h
      · rename_i star
        exact Or.inl ⟨List.contains_iff_mem.mp star, mapError_eq_ok_iff.mp h⟩
      · rename_i star
        exact Or.inr ⟨fun hm => star (List.contains_iff_mem.mpr hm), h⟩
    · cases h
  · rintro ⟨place, children, located, there, way⟩
    rw [FileSystem.entry?_eq_some_iff.mpr ⟨place, located, there⟩]
    dsimp only
    rcases way with ⟨star, found⟩ | ⟨star, found⟩
    · rw [if_pos (List.contains_iff_mem.mpr star), found]
      rfl
    · rw [if_neg fun hm => star (List.contains_iff_mem.mp hm), found]

/-! ### The same files are found -/

theorem Entry.get?_of_below {tree entry : Entry} {place : List String} (there : tree.get? place = some entry)
    (names : List String) : entry.get? names = tree.get? (place ++ names) := by
  rw [Entry.get?_append, there, Option.bind_some]

/-- A walk that comes to its end can follow the path of every entry that it meets. -/
theorem locate_of_walk {fs : FileSystem} {directory : Path} {place : List String} {children : List (String × Entry)}
    {files : List Path} (tree : fs.root.Distinct) (named : fs.root.WellNamed) (located : fs.locate directory = .ok place)
    (there : fs.root.get? place = some (.directory children))
    (walked : walk fs directory "" (.directory children) = .ok files) {chain : List String}
    (standing : (fs.root.get? (place ++ chain)).isSome = true) :
    fs.locate (directory.below chain) = .ok (place ++ chain) := by
  have listed : ∀ name ∈ chain, IsFileName name := fun name hn =>
    named _ standing name (List.mem_append_right place hn)
  refine (FileSystem.locate_below located listed (Option.isSome_map.trans standing)).resolve_right fun long => ?_
  rcases walk_cases (tree.get? there) fs directory "" with ⟨_, -, all⟩ | ⟨_, -, -, failed⟩
  · refine all chain ⟨?_, (Entry.get?_of_below there chain) ▸ standing, long⟩
    rintro rfl
    have same : directory.below [] = directory := by simp [Path.below]
    rw [same, located] at long
    cases long
  · cases walked.symm.trans failed

/-- A path leads to none of the files that a search reads: those of the given names, and those below the source
    directory that a walk finds. -/
structure Discovery.Apart (fs : FileSystem) (path directory : Path) (names : List RawText) : Prop where
  named : ∀ name ∈ names, ∀ place, fs.locate path = .ok place → fs.locate (contractPath directory name) ≠ .ok place
  walked : ∀ place, fs.locate directory = .ok place → ∀ folders name, hasEnding sourceEnding name = true →
    fs.locate path ≠ .ok (place ++ folders ++ [name])

section

variable {before after : FileSystem} {path directory : Path} {content : List UInt8} {names : List RawText}
  {files : List Path}

theorem Discovery.Apart.ne_below (apart : Apart after path directory names) {place below : List String}
    (located : after.locate directory = .ok place) (ending : hasEnding sourceEnding (below.getLastD "") = true) :
    after.locate path ≠ .ok (place ++ below) := by
  rcases List.eq_nil_or_concat below with rfl | ⟨folders, name, rfl⟩
  · exact absurd ending (by decide)
  · rw [List.concat_eq_append] at ending ⊢
    rw [List.getLastD_concat] at ending
    rw [← List.append_assoc]
    exact apart.walked place located folders name ending

theorem Discovery.Apart.sameFile (apart : Apart after path directory names)
    (leaves : before.Leaves after path content) {name : RawText} (listed : name ∈ names)
    (found : before.isFile (contractPath directory name) = .ok true) :
    before.SameFile after (contractPath directory name) := by
  obtain ⟨place, kept, located, there⟩ := FileSystem.isFile_eq_true_iff.mp found
  refine leaves.sameFile located there fun written => ?_
  exact apart.named name listed place written (leaves.grows.locate located)

/-- In the second of two trees a walk fails at an entry that the first one does not have: the path of the entry is too
    long to be looked up. -/
structure Discovery.FailsAtNew (before after : FileSystem) (directory : Path) (names : List RawText)
    (chain : List String) : Prop where
  star : RawText.ofString wildcard ∈ names
  fresh : ∃ place, after.locate directory = .ok place ∧ before.root.get? (place ++ chain) = none ∧
    (after.root.get? (place ++ chain)).isSome = true
  long : after.locate (directory.below chain) = .error .nameTooLong
  fails : discover after directory names = .error (.access ⟨.nameTooLong, directory.below chain⟩)

theorem discover_of_leaves (tree : before.root.Distinct) (named : before.root.WellNamed)
    (leaves : before.Leaves after path content) (apart : Apart after path directory names)
    (found : discover before directory names = .ok files) :
    discover after directory names = .ok files ∨ ∃ chain, FailsAtNew before after directory names chain := by
  obtain ⟨place, children, located, there, way⟩ := discover_eq_ok_iff.mp found
  have located' := leaves.grows.locate located
  obtain ⟨children', there'⟩ := Entry.nodeAt?_eq_directory_iff.mp
    (leaves.grows.directories place (Entry.nodeAt?_eq_directory_iff.mpr ⟨children, there⟩))
  rcases way with ⟨star, walked⟩ | ⟨star, looked⟩
  · have distinct := (leaves.grows.distinct tree).get? there'
    rcases walk_cases distinct after directory "" with ⟨files', walked', -⟩ | ⟨chain, out, -, failed⟩
    · have alike : files = files' := by
        refine eq_of_walks (tree.get? there) distinct walked walked' fun below ending => ?_
        have same (kept : List UInt8) : after.root.nodeAt? (place ++ below) = some (.file kept) ↔
            before.root.nodeAt? (place ++ below) = some (.file kept) :=
          leaves.file_iff (apart.ne_below located' ending)
        simp only [Entry.get?_of_below there, Entry.get?_of_below there', ← Entry.nodeAt?_eq_file_iff, same]
      exact Or.inl (discover_eq_ok_iff.mpr ⟨place, children', located', there', Or.inl ⟨star, alike ▸ walked'⟩⟩)
    · refine Or.inr ⟨chain, star, ⟨place, located', ?_, Entry.get?_of_below there' chain ▸ out.there⟩, out.long, ?_⟩
      · -- What the first walk met could be looked up, and still can.
        refine Option.not_isSome_iff_eq_none.mp fun standing => ?_
        have leads := leaves.grows.locate (locate_of_walk tree named located there walked standing)
        cases leads.symm.trans out.long
      · rw [discover_star (FileSystem.entry?_eq_some_iff.mpr ⟨place, located', there'⟩) star, failed]
        rfl
  · obtain ⟨rfl, all⟩ := named_eq_ok_iff.mp looked
    refine Or.inl (discover_eq_ok_iff.mpr ⟨place, children', located', there', Or.inr ⟨star, ?_⟩⟩)
    exact named_eq_ok_iff.mpr ⟨rfl, fun name listed => (apart.sameFile leaves listed (all name listed)).isFile⟩

/-- A file that is found can be read in both trees. -/
theorem sameFile_of_discover (tree : before.root.Distinct) (named : before.root.WellNamed)
    (leaves : before.Leaves after path content) (apart : Apart after path directory names)
    (found : discover before directory names = .ok files) {file : Path} (hf : file ∈ files) :
    before.SameFile after file := by
  obtain ⟨place, children, located, there, ⟨-, walked⟩ | ⟨-, found⟩⟩ := discover_eq_ok_iff.mp found
  · obtain ⟨below, kept, rfl, standing, ending⟩ := (mem_of_walk (tree.get? there) walked file).mp hf
    rw [Entry.get?_of_below there] at standing
    have leads := locate_of_walk tree named located there walked (by rw [standing]; rfl)
    exact leaves.sameFile leads (Entry.nodeAt?_eq_file_iff.mpr standing)
      (apart.ne_below (leaves.grows.locate located) ending)
  · obtain ⟨rfl, all⟩ := named_eq_ok_iff.mp found
    obtain ⟨name, listed, rfl⟩ := List.mem_map.mp hf
    exact apart.sameFile leaves listed (all name listed)

end

end SolidityLint

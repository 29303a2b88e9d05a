import Mathlib.Data.List.Basic
import Mathlib.Data.String.Basic
import SolidityLint.Files.Discovery
import SolidityLint.Proofs.Config.Checks

/-! Discovery of all files. With a star among the names, what is found is every file below the source directory whose
    name ends in `.sol` and has more in front of it, each once. The order is that of the names on the way from the
    source directory, compared one after another; it is not that of the texts of the paths, in which `a/b.sol` comes
    after `a.sol`. Every entry on the way is looked up by its path, and the first one in that order whose path is too
    long for that (`Discovery.OutOfReach`) is the failure.

    All this is proved along the tree: every directory sorts its entries and puts what is below them one after
    another, so an order of names becomes an order of chains of names. -/

namespace SolidityLint

/-! ### Trees -/

/-- A tree as it can stand in a file system: no directory has two entries of the same name. -/
inductive Entry.Distinct : Entry → Prop
  | file (content : List UInt8) : Distinct (.file content)
  | directory {children : List (String × Entry)} (names : (children.map (·.1)).Nodup)
      (below : ∀ child ∈ children, Distinct child.2) : Distinct (.directory children)

namespace Entry

theorem child?_eq_some_iff {children : List (String × Entry)} (names : (children.map (·.1)).Nodup) {name : String}
    {entry : Entry} : (directory children).child? name = some entry ↔ (name, entry) ∈ children := by
  unfold child?
  induction children with
  | nil => simp
  | cons first rest ih =>
    simp only [List.map_cons, List.nodup_cons] at names
    by_cases h : first.1 = name
    · subst h
      have fresh : (first.1, entry) ∉ rest := fun hm => names.1 (List.mem_map.mpr ⟨_, hm, rfl⟩)
      simp [fresh, Prod.ext_iff, eq_comm]
    · have other : (name, entry) ≠ first := fun he => h (congrArg Prod.fst he).symm
      simpa [h, other] using ih names.2

theorem get?_cons_eq_some_iff {children : List (String × Entry)} (names : (children.map (·.1)).Nodup) {name : String}
    {rest : List String} {entry : Entry} :
    (directory children).get? (name :: rest) = some entry ↔
      ∃ child, (name, child) ∈ children ∧ child.get? rest = some entry := by
  rw [get?]
  cases h : (directory children).child? name with
  | none =>
    refine ⟨nofun, fun ⟨child, hm, _⟩ => ?_⟩
    rw [(child?_eq_some_iff names).mpr hm] at h
    cases h
  | some child =>
    refine ⟨fun hg => ⟨child, (child?_eq_some_iff names).mp h, hg⟩, fun ⟨other, hm, hg⟩ => ?_⟩
    rw [(child?_eq_some_iff names).mpr hm] at h
    cases h
    exact hg

/-- What is in a distinct tree is distinct itself. -/
theorem Distinct.get? {tree entry : Entry} (h : tree.Distinct) {names : List String}
    (hg : tree.get? names = some entry) : entry.Distinct := by
  induction names generalizing tree with
  | nil =>
    cases hg
    exact h
  | cons name rest ih =>
    cases h with
    | file content => cases hg
    | directory distinct below =>
      obtain ⟨child, hm, hg⟩ := (get?_cons_eq_some_iff distinct).mp hg
      exact ih (below _ hm) hg

end Entry

/-! ### Paths below a directory -/

/-- The path that names lead to from a directory. -/
def Path.below (directory : Path) (names : List String) : Path :=
  { directory with parts := directory.parts ++ names.map RawText.ofString }

theorem Path.below_child (directory : Path) (name : String) (names : List String) :
    (directory.child name).below names = directory.below (name :: names) := by
  simp [Path.below, Path.child]

theorem Path.below_injective {directory : Path} {names names' : List String}
    (h : directory.below names = directory.below names') : names = names' := by
  have parts := congrArg Path.parts h
  simp only [Path.below, List.append_cancel_left_eq] at parts
  exact RawText.map_ofString_injective parts

/-- Whether a path comes before another in the order of the names on the way from a directory. -/
def Path.Before (directory first second : Path) : Prop :=
  ∃ names names' : List String, first = directory.below names ∧ second = directory.below names' ∧ names < names'

theorem Path.Before.ne {directory first second : Path} (h : Before directory first second) : first ≠ second := by
  obtain ⟨names, names', rfl, rfl, hl⟩ := h
  intro he
  rw [Path.below_injective he] at hl
  exact lt_irrefl names' hl

theorem Path.Before.of_child {directory first second : Path} {name : String}
    (h : Before (directory.child name) first second) : Before directory first second := by
  obtain ⟨names, names', rfl, rfl, hl⟩ := h
  exact ⟨name :: names, name :: names', directory.below_child name names, directory.below_child name names',
    List.cons_lt_cons_self.mpr hl⟩

/-! ### Names of source files -/

theorem hasEnding_iff {name : String} :
    hasEnding Discovery.sourceEnding name = true ↔ ∃ stem : String, stem ≠ "" ∧ name = stem ++ ".sol" := by
  rw [hasEnding, Bool.and_eq_true, List.isSuffixOf_iff_suffix, decide_eq_true_eq]
  constructor
  · rintro ⟨⟨stem, h⟩, longer⟩
    have spelled : name = String.ofList stem ++ ".sol" := by
      rw [← String.toList_inj, String.toList_append, String.toList_ofList]
      exact h.symm
    refine ⟨String.ofList stem, fun hs => ?_, spelled⟩
    rw [spelled, hs] at longer
    exact absurd longer (by decide)
  · rintro ⟨stem, hs, rfl⟩
    refine ⟨⟨stem.toList, String.toList_append.symm⟩, ?_⟩
    have pos : 0 < stem.length := Nat.pos_of_ne_zero fun h => hs (String.length_eq_zero_iff.mp h)
    rw [String.length_append]
    exact Nat.lt_add_of_pos_left pos

/-! ### Entries that are looked up -/

/-- Only a path that is too long keeps an entry from being looked up. -/
theorem FileSystem.entry?_eq_error_iff {fs : FileSystem} {path : Path} {e : FileError} :
    fs.entry? path = .error e ↔ fs.locate path = .error .nameTooLong ∧ e = ⟨.nameTooLong, path⟩ := by
  unfold entry?
  cases fs.locate path with
  | error obstacle => cases obstacle <;> simp [eq_comm]
  | ok place => simp

theorem FileSystem.exists_entry?_iff {fs : FileSystem} {path : Path} :
    (∃ entry, fs.entry? path = .ok entry) ↔ fs.locate path ≠ .error .nameTooLong := by
  unfold entry?
  cases fs.locate path with
  | error obstacle => cases obstacle <;> simp
  | ok place => simp

namespace Discovery

/-- A chain of names that leads to an entry of a tree, where the path of the entry is too long to be looked up. -/
structure OutOfReach (fs : FileSystem) (path : Path) (tree : Entry) (chain : List String) : Prop where
  ne_nil : chain ≠ []
  there : (tree.get? chain).isSome = true
  long : fs.locate (path.below chain) = .error .nameTooLong

section

variable {fs : FileSystem} {path : Path} {name : String} {entry : Entry} {children : List (String × Entry)}

theorem not_outOfReach_file {content : List UInt8} {chain : List String} :
    ¬OutOfReach fs path (.file content) chain := by
  rintro ⟨some, there, -⟩
  cases chain with
  | nil => exact some rfl
  | cons first rest => cases there

theorem outOfReach_cons_iff (names : (children.map (·.1)).Nodup) {rest : List String} :
    OutOfReach fs path (.directory children) (name :: rest) ↔ ∃ child, (name, child) ∈ children ∧
      (rest = [] ∧ fs.locate (path.child name) = .error .nameTooLong ∨
        OutOfReach fs (path.child name) child rest) := by
  constructor
  · rintro ⟨-, there, long⟩
    obtain ⟨found, standing⟩ := Option.isSome_iff_exists.mp there
    obtain ⟨child, hm, standing⟩ := (Entry.get?_cons_eq_some_iff names).mp standing
    rw [← path.below_child] at long
    refine ⟨child, hm, ?_⟩
    rcases List.eq_nil_or_concat rest with rfl | ⟨_, _, rfl⟩
    · exact Or.inl ⟨rfl, by simpa [Path.below] using long⟩
    · exact Or.inr ⟨by simp, by rw [standing]; rfl, long⟩
  · rintro ⟨child, hm, ⟨rfl, long⟩ | ⟨-, there, long⟩⟩
    · refine ⟨by simp, ?_, by simpa [Path.below, Path.child] using long⟩
      rw [(Entry.get?_cons_eq_some_iff names).mpr ⟨child, hm, rfl⟩]
      rfl
    · obtain ⟨found, standing⟩ := Option.isSome_iff_exists.mp there
      refine ⟨by simp, ?_, path.below_child name rest ▸ long⟩
      rw [(Entry.get?_cons_eq_some_iff names).mpr ⟨child, hm, standing⟩]
      rfl

theorem not_outOfReach_directory (names : (children.map (·.1)).Nodup)
    (h : ∀ child ∈ children, fs.locate (path.child child.1) ≠ .error .nameTooLong ∧
      ∀ chain, ¬OutOfReach fs (path.child child.1) child.2 chain) (chain : List String) :
    ¬OutOfReach fs path (.directory children) chain := by
  intro out
  cases chain with
  | nil => exact out.ne_nil rfl
  | cons first rest =>
    obtain ⟨child, hm, ⟨-, long⟩ | out⟩ := (outOfReach_cons_iff names).mp out
    · exact (h _ hm).1 long
    · exact (h _ hm).2 rest out

theorem walkChild_eq_ok_iff {files : List Path} : (walkChild fs path (name, entry)).2 = .ok files ↔
    fs.locate (path.child name) ≠ .error .nameTooLong ∧ walk fs (path.child name) name entry = .ok files := by
  rw [← FileSystem.exists_entry?_iff, walkChild]
  cases fs.entry? (path.child name) <;> simp

theorem walkChild_eq_error_iff {e : FileError} : (walkChild fs path (name, entry)).2 = .error e ↔
    fs.locate (path.child name) = .error .nameTooLong ∧ e = ⟨.nameTooLong, path.child name⟩ ∨
      fs.locate (path.child name) ≠ .error .nameTooLong ∧ walk fs (path.child name) name entry = .error e := by
  rw [← FileSystem.entry?_eq_error_iff, ← FileSystem.exists_entry?_iff, walkChild]
  cases fs.entry? (path.child name) <;> simp

/-! ### One directory -/

theorem walkChildren_eq_map (fs : FileSystem) (path : Path) (children : List (String × Entry)) :
    walkChildren fs path children = children.map (walkChild fs path) := by
  induction children with
  | nil => rfl
  | cons child rest ih => rw [walkChildren, ih, List.map_cons]

theorem map_fst_walkChildren (fs : FileSystem) (path : Path) (children : List (String × Entry)) :
    (walkChildren fs path children).map (·.1) = children.map (·.1) := by
  rw [walkChildren_eq_map, List.map_map]
  exact List.map_congr_left fun ⟨_, _⟩ _ => by rw [Function.comp_apply, walkChild]

theorem mem_walkChildren_iff {found : Except FileError (List Path)} :
    (name, found) ∈ walkChildren fs path children ↔
      ∃ child, (name, child) ∈ children ∧ (walkChild fs path (name, child)).2 = found := by
  rw [walkChildren_eq_map, List.mem_map]
  constructor
  · rintro ⟨⟨first, child⟩, hm, same⟩
    obtain ⟨rfl, rfl⟩ := Prod.mk.inj same
    exact ⟨child, hm, rfl⟩
  · rintro ⟨child, hm, rfl⟩
    exact ⟨_, hm, rfl⟩

end

/-- Entries of different names come in the strict order of their names. -/
theorem pairwise_sorted_names {α : Type} {found : List (String × α)} (names : (found.map (·.1)).Nodup) :
    (found.mergeSort fun a b => !decide (b.1 < a.1)).Pairwise fun a b => a.1 < b.1 := by
  have le_iff (a b : String × α) : (!decide (b.1 < a.1)) = true ↔ a.1 ≤ b.1 := by
    rw [Bool.not_eq_true', decide_eq_false_iff_not, not_lt]
  have sorted : (found.mergeSort fun a b => !decide (b.1 < a.1)).Pairwise fun a b => a.1 ≤ b.1 := by
    refine (List.pairwise_mergeSort (fun a b c => ?_) (fun a b => ?_) found).imp fun {a b} => (le_iff a b).mp
    · rw [le_iff, le_iff, le_iff]
      exact le_trans
    · rw [Bool.or_eq_true, le_iff, le_iff]
      exact le_total a.1 b.1
  have distinct : (found.mergeSort fun a b => !decide (b.1 < a.1)).Pairwise fun a b => a.1 ≠ b.1 :=
    List.pairwise_map.mp (((List.mergeSort_perm found _).map _).nodup_iff.mpr names)
  exact sorted.imp₂ (fun _ _ hle hne => lt_of_le_of_ne hle hne) distinct

section

variable {found : List (String × Except FileError (List Path))} {files : List Path}

theorem inNameOrder_eq_ok (h : inNameOrder found = .ok files) : ∃ parts : List (List Path), files = parts.flatten ∧
    (found.mergeSort fun a b => !decide (b.1 < a.1)).map Prod.snd = parts.map .ok := by
  rw [inNameOrder] at h
  cases made : (found.mergeSort fun a b => !decide (b.1 < a.1)).mapM Prod.snd with
  | error e => rw [made] at h; cases h
  | ok parts =>
    rw [made] at h
    exact ⟨parts, (Except.ok.inj h).symm, mapM_eq_ok_iff.mp made⟩

/-- If there is an answer, there is one for each entry, and it is made of those. -/
theorem mem_of_inNameOrder (h : inNameOrder found = .ok files) :
    (∀ entry ∈ found, ∃ part, entry.2 = .ok part) ∧
      ∀ file, file ∈ files ↔ ∃ entry ∈ found, ∃ part, entry.2 = .ok part ∧ file ∈ part := by
  obtain ⟨parts, rfl, same⟩ := inNameOrder_eq_ok h
  have part_of {entry} (he : entry ∈ found) : ∃ part ∈ parts, entry.2 = .ok part := by
    have sorted : entry ∈ found.mergeSort fun a b => !decide (b.1 < a.1) := List.mem_mergeSort.mpr he
    have listed := List.mem_map_of_mem (f := Prod.snd) sorted
    rw [same] at listed
    obtain ⟨part, hp, made⟩ := List.mem_map.mp listed
    exact ⟨part, hp, made.symm⟩
  refine ⟨fun entry he => ?_, fun file => ?_⟩
  · obtain ⟨part, -, made⟩ := part_of he
    exact ⟨part, made⟩
  · rw [List.mem_flatten]
    constructor
    · rintro ⟨part, hp, hf⟩
      have listed : Except.ok part ∈ (found.mergeSort fun a b => !decide (b.1 < a.1)).map Prod.snd :=
        same ▸ List.mem_map_of_mem hp
      obtain ⟨entry, he, made⟩ := List.mem_map.mp listed
      exact ⟨entry, List.mem_mergeSort.mp he, part, made, hf⟩
    · rintro ⟨entry, he, part, made, hf⟩
      obtain ⟨part', hp, made'⟩ := part_of he
      obtain rfl := Except.ok.inj (made.symm.trans made')
      exact ⟨part, hp, hf⟩

/-- An order within the answers of entries and between those of entries with different names is one of the whole. -/
theorem pairwise_of_inNameOrder {R : Path → Path → Prop} (names : (found.map (·.1)).Nodup)
    (h : inNameOrder found = .ok files) (within : ∀ entry ∈ found, ∀ part, entry.2 = .ok part → part.Pairwise R)
    (between : ∀ first ∈ found, ∀ second ∈ found, first.1 < second.1 → ∀ part part', first.2 = .ok part →
      second.2 = .ok part' → ∀ a ∈ part, ∀ b ∈ part', R a b) : files.Pairwise R := by
  obtain ⟨parts, rfl, same⟩ := inNameOrder_eq_ok h
  have sorted := (pairwise_sorted_names names).imp_of_mem fun {first second} h₁ h₂ =>
    between first (List.mem_mergeSort.mp h₁) second (List.mem_mergeSort.mp h₂)
  have apart : (parts.map (Except.ok (ε := FileError))).Pairwise fun one two =>
      ∀ part part', one = .ok part → two = .ok part' → ∀ a ∈ part, ∀ b ∈ part', R a b := by
    rw [← same]
    exact List.pairwise_map.mpr sorted
  refine List.pairwise_flatten.mpr ⟨fun part hp => ?_, ?_⟩
  · have listed : Except.ok part ∈ (found.mergeSort fun a b => !decide (b.1 < a.1)).map Prod.snd :=
      same ▸ List.mem_map_of_mem hp
    obtain ⟨entry, he, made⟩ := List.mem_map.mp listed
    exact within entry (List.mem_mergeSort.mp he) part made
  · exact (List.pairwise_map.mp apart).imp fun {part part'} apart => apart part part' rfl rfl

/-- There is an answer, or the first entry in the order of the names that has none is the failure. -/
theorem inNameOrder_cases (names : (found.map (·.1)).Nodup) :
    (∃ files, inNameOrder found = .ok files) ∨ ∃ name e, (name, .error e) ∈ found ∧
      (∀ entry ∈ found, entry.1 < name → ∃ part, entry.2 = .ok part) ∧ inNameOrder found = .error e := by
  have sorted := pairwise_sorted_names names
  rw [inNameOrder]
  rcases mapM_cases Prod.snd (found.mergeSort fun a b => !decide (b.1 < a.1)) with
    ⟨parts, all⟩ | ⟨before, ⟨name, _⟩, after, e, split, good, rfl, failed⟩
  · exact Or.inl ⟨parts.flatten, by rw [all]; rfl⟩
  · refine Or.inr ⟨name, e, ?_, fun entry he less => ?_, by rw [failed]; rfl⟩
    · exact List.mem_mergeSort.mp (split ▸ List.mem_append_right before List.mem_cons_self)
    · have listed : entry ∈ before ++ (name, .error e) :: after := split ▸ List.mem_mergeSort.mpr he
      rcases List.mem_append.mp listed with early | late
      · exact good entry early
      · rw [split, List.pairwise_append, List.pairwise_cons] at sorted
        rcases List.mem_cons.mp late with rfl | late
        · exact absurd less (lt_irrefl _)
        · exact absurd (sorted.2.1.1 entry late) (lt_asymm less)

end

/-! ### The whole tree -/

/-- What is found at or below an entry: the files to which chains of names lead, where the last name, or that of the
    entry itself, has the ending. -/
theorem mem_of_walk {entry : Entry} (h : entry.Distinct) {fs : FileSystem} {path : Path} {name : String}
    {files : List Path} (walked : walk fs path name entry = .ok files) (file : Path) :
    file ∈ files ↔ ∃ names content, file = path.below names ∧
      entry.get? names = some (.file content) ∧ hasEnding sourceEnding (names.getLastD name) = true := by
  induction h generalizing path name files file with
  | file content =>
    rw [walk] at walked
    obtain rfl := Except.ok.inj walked
    split
    · rename_i ending
      rw [List.mem_singleton]
      constructor
      · rintro rfl
        exact ⟨[], content, by simp [Path.below], rfl, ending⟩
      · rintro ⟨names, _, rfl, hg, -⟩
        cases names with
        | nil => simp [Path.below]
        | cons first rest => cases hg
    · rename_i ending
      refine ⟨nofun, ?_⟩
      rintro ⟨names, _, rfl, hg, he⟩
      cases names with
      | nil => exact absurd he ending
      | cons first rest => cases hg
  | @directory children distinct below ih =>
    rw [walk] at walked
    obtain ⟨all, members⟩ := mem_of_inNameOrder walked
    rw [members]
    constructor
    · rintro ⟨⟨first, _⟩, listed, part, rfl, hf⟩
      obtain ⟨child, hm, found⟩ := mem_walkChildren_iff.mp listed
      obtain ⟨names, content, rfl, hg, he⟩ := (ih _ hm (walkChild_eq_ok_iff.mp found).2 file).mp hf
      refine ⟨first :: names, content, path.below_child first names, ?_, ?_⟩
      · exact (Entry.get?_cons_eq_some_iff distinct).mpr ⟨child, hm, hg⟩
      · rwa [List.getLastD_cons]
    · rintro ⟨names, content, rfl, hg, he⟩
      cases names with
      | nil => cases hg
      | cons first names =>
        obtain ⟨child, hm, hg⟩ := (Entry.get?_cons_eq_some_iff distinct).mp hg
        have listed : (first, (walkChild fs path (first, child)).2) ∈ walkChildren fs path children :=
          mem_walkChildren_iff.mpr ⟨child, hm, rfl⟩
        obtain ⟨part, found⟩ := all _ listed
        refine ⟨_, listed, part, found, ?_⟩
        rw [List.getLastD_cons] at he
        exact (ih _ hm (walkChild_eq_ok_iff.mp found).2 _).mpr
          ⟨names, content, (path.below_child first names).symm, hg, he⟩

/-- What is found comes in the strict order of the names below a path. -/
theorem pairwise_of_walk {entry : Entry} (h : entry.Distinct) {fs : FileSystem} {path : Path} {name : String}
    {files : List Path} (walked : walk fs path name entry = .ok files) : files.Pairwise path.Before := by
  induction h generalizing path name files with
  | file content =>
    rw [walk] at walked
    obtain rfl := Except.ok.inj walked
    split
    · exact List.pairwise_singleton _ _
    · exact List.Pairwise.nil
  | @directory children distinct below ih =>
    have names : ((walkChildren fs path children).map (·.1)).Nodup := map_fst_walkChildren fs path children ▸ distinct
    rw [walk] at walked
    refine pairwise_of_inNameOrder names walked ?_ ?_
    · -- Below one entry the names after the first decide.
      rintro ⟨first, _⟩ listed part rfl
      obtain ⟨child, hm, found⟩ := mem_walkChildren_iff.mp listed
      exact (ih _ hm (walkChild_eq_ok_iff.mp found).2).imp Path.Before.of_child
    · -- Below two entries the first names decide.
      rintro ⟨first, _⟩ listed ⟨first', _⟩ listed' less part part' rfl rfl a ha b hb
      obtain ⟨child, hm, found⟩ := mem_walkChildren_iff.mp listed
      obtain ⟨child', hm', found'⟩ := mem_walkChildren_iff.mp listed'
      obtain ⟨names, _, rfl, -⟩ := (mem_of_walk (below _ hm) (walkChild_eq_ok_iff.mp found).2 a).mp ha
      obtain ⟨names', _, rfl, -⟩ := (mem_of_walk (below _ hm') (walkChild_eq_ok_iff.mp found').2 b).mp hb
      exact ⟨first :: names, first' :: names', path.below_child first names, path.below_child first' names',
        List.cons_lt_cons_iff.mpr (Or.inl less)⟩

/-- A walk comes to its end if it can look up all entries; else the first one that it cannot look up is the failure. -/
theorem walk_cases {entry : Entry} (h : entry.Distinct) (fs : FileSystem) (path : Path) (name : String) :
    (∃ files, walk fs path name entry = .ok files ∧ ∀ chain, ¬OutOfReach fs path entry chain) ∨
      ∃ chain, OutOfReach fs path entry chain ∧ (∀ other, OutOfReach fs path entry other → ¬other < chain) ∧
        walk fs path name entry = .error ⟨.nameTooLong, path.below chain⟩ := by
  induction h generalizing path name with
  | file content => exact Or.inl ⟨_, walk.eq_1 fs path name content, fun _ => not_outOfReach_file⟩
  | @directory children distinct below ih =>
    have names : ((walkChildren fs path children).map (·.1)).Nodup := map_fst_walkChildren fs path children ▸ distinct
    -- A chain that starts with an entry that has an answer is not out of reach.
    have within_reach {first : String} {rest : List String} (good : ∀ child, (first, child) ∈ children →
        ∃ part, (walkChild fs path (first, child)).2 = .ok part) :
        ¬OutOfReach fs path (.directory children) (first :: rest) := by
      intro out
      obtain ⟨child, hm, way⟩ := (outOfReach_cons_iff distinct).mp out
      obtain ⟨part, found⟩ := good child hm
      obtain ⟨short, walked⟩ := walkChild_eq_ok_iff.mp found
      rcases way with ⟨-, long⟩ | out
      · exact short long
      · rcases ih _ hm (path.child first) first with ⟨_, -, all⟩ | ⟨_, -, -, failed⟩
        · exact all _ out
        · cases walked.symm.trans failed
    rw [walk]
    rcases inNameOrder_cases names with ⟨files, walked⟩ | ⟨first, e, listed, earlier, failed⟩
    · refine Or.inl ⟨files, walked, fun chain out => ?_⟩
      cases chain with
      | nil => exact out.ne_nil rfl
      | cons first rest =>
        refine within_reach (fun child hm => ?_) out
        exact (mem_of_inNameOrder walked).1 _ (mem_walkChildren_iff.mpr ⟨child, hm, rfl⟩)
    · obtain ⟨child, hm, refused⟩ := mem_walkChildren_iff.mp listed
      -- Chains that start with an earlier name are within reach.
      have first_of {chain : List String} (least : ∀ rest, OutOfReach fs path (.directory children) (first :: rest) →
          ¬first :: rest < chain) (starts : ∃ rest, chain = first :: rest) (other : List String)
          (out : OutOfReach fs path (.directory children) other) : ¬other < chain := by
        obtain ⟨rest, rfl⟩ := starts
        cases other with
        | nil => exact absurd rfl out.ne_nil
        | cons name others =>
          intro less
          rcases List.cons_lt_cons_iff.mp less with early | ⟨rfl, -⟩
          · refine within_reach (fun child' hm' => ?_) out
            exact earlier _ (mem_walkChildren_iff.mpr ⟨child', hm', rfl⟩) early
          · exact least others out less
      rcases walkChild_eq_error_iff.mp refused with ⟨long, rfl⟩ | ⟨short, refused⟩
      · refine Or.inr ⟨[first], (outOfReach_cons_iff distinct).mpr ⟨child, hm, Or.inl ⟨rfl, long⟩⟩,
          first_of (fun rest _ less => ?_) ⟨[], rfl⟩, failed⟩
        rcases List.cons_lt_cons_iff.mp less with less | ⟨-, less⟩
        · exact lt_irrefl _ less
        · exact List.not_lt_nil _ less
      · rcases ih _ hm (path.child first) first with ⟨_, walked, -⟩ | ⟨chain, out, least, refused'⟩
        · cases walked.symm.trans refused
        · obtain rfl := Except.error.inj (refused.symm.trans refused')
          refine Or.inr ⟨first :: chain, (outOfReach_cons_iff distinct).mpr ⟨child, hm, Or.inr out⟩,
            first_of (fun rest out' less => ?_) ⟨chain, rfl⟩, path.below_child first chain ▸ failed⟩
          obtain ⟨child', hm', way⟩ := (outOfReach_cons_iff distinct).mp out'
          rcases List.cons_lt_cons_iff.mp less with less | ⟨-, less⟩
          · exact lt_irrefl _ less
          · rcases way with ⟨-, long⟩ | out'
            · exact short long
            · have same : child' = child := by
                have one := (Entry.child?_eq_some_iff distinct).mpr hm
                rw [(Entry.child?_eq_some_iff distinct).mpr hm'] at one
                exact Option.some.inj one
              exact least rest (same ▸ out') less

end Discovery

theorem FileSystem.entry?_eq_some {fs : FileSystem} {path : Path} {entry : Entry}
    (h : fs.entry? path = .ok (some entry)) : ∃ place, fs.root.get? place = some entry := by
  unfold FileSystem.entry? at h
  split at h
  · rename_i place _
    exact ⟨place, Except.ok.inj h⟩
  · cases h
  · cases h

open Discovery

theorem discover_star {fs : FileSystem} {directory : Path} {names : List RawText} {children : List (String × Entry)}
    (root : fs.entry? directory = .ok (some (.directory children))) (star : RawText.ofString "*" ∈ names) :
    discover fs directory names = (walk fs directory "" (.directory children)).mapError .access := by
  have asked : names.contains (RawText.ofString wildcard) = true := List.contains_iff_mem.mpr star
  simp only [discover, root, asked, if_true]

/-- A single entry whose path is too long keeps a directory from being walked. -/
theorem discover_star_of_long_child {fs : FileSystem} {directory : Path} {names : List RawText} {name : String}
    {child : Entry} (root : fs.entry? directory = .ok (some (.directory [(name, child)])))
    (star : RawText.ofString "*" ∈ names) (long : fs.locate (directory.child name) = .error .nameTooLong) :
    discover fs directory names = .error (.access ⟨.nameTooLong, directory.child name⟩) := by
  have refused : fs.entry? (directory.child name) = .error ⟨.nameTooLong, directory.child name⟩ :=
    FileSystem.entry?_eq_error_iff.mpr ⟨long, rfl⟩
  rw [discover_star root star, walk, walkChildren, walkChildren, walkChild, refused, inNameOrder,
    List.mergeSort_singleton]
  rfl

/-- Whatever else is asked for, a star finds in an existing directory all files below it with a name that has
    something in front of `.sol`, each once, in the order of the names on the way to them. But every entry below the
    directory is looked up, whatever its name, and if the paths of some are too long for that, the first of them in
    the order of the names on the way is the failure. -/
theorem discover_wildcard (fs : FileSystem) (directory : Path) (names : List RawText)
    {children : List (String × Entry)} (tree : fs.root.Distinct)
    (root : fs.entry? directory = .ok (some (.directory children))) (star : RawText.ofString "*" ∈ names) :
    (∃ files, discover fs directory names = .ok files ∧
      (∀ chain, ¬OutOfReach fs directory (.directory children) chain) ∧
      (∀ file, file ∈ files ↔ ∃ folders stem content, stem ≠ "" ∧
        file = directory.below (folders ++ [stem ++ ".sol"]) ∧
        (Entry.directory children).get? (folders ++ [stem ++ ".sol"]) = some (.file content)) ∧
      files.Nodup ∧ files.Pairwise directory.Before) ∨
    ∃ chain, OutOfReach fs directory (.directory children) chain ∧
      (∀ other, OutOfReach fs directory (.directory children) other → ¬other < chain) ∧
      discover fs directory names = .error (.access ⟨.nameTooLong, directory.below chain⟩) := by
  obtain ⟨place, found⟩ := FileSystem.entry?_eq_some root
  have distinct := tree.get? found
  rw [discover_star root star]
  rcases walk_cases distinct fs directory "" with ⟨files, walked, all⟩ | ⟨chain, out, least, failed⟩
  · have sorted := pairwise_of_walk distinct walked
    refine Or.inl ⟨files, by rw [walked]; rfl, all, fun file => ?_,
      List.nodup_iff_pairwise_ne.mpr (sorted.imp Path.Before.ne), sorted⟩
    rw [mem_of_walk distinct walked]
    constructor
    · rintro ⟨chain, content, rfl, hg, he⟩
      obtain ⟨stem, hs, hn⟩ := hasEnding_iff.mp he
      have split : chain = chain.dropLast ++ [stem ++ ".sol"] := by
        cases chain with
        | nil => cases hg
        | cons first rest =>
          rw [← hn, List.getLastD_eq_getLast?, List.getLast?_eq_some_getLast (List.cons_ne_nil first rest)]
          exact (List.dropLast_append_getLast _).symm
      exact ⟨chain.dropLast, stem, content, hs, congrArg directory.below split, split ▸ hg⟩
    · rintro ⟨folders, stem, content, hs, rfl, hg⟩
      refine ⟨_, content, rfl, hg, hasEnding_iff.mpr ⟨stem, hs, ?_⟩⟩
      simp
  · exact Or.inr ⟨chain, out, least, by rw [failed]; rfl⟩

/-- A directory between two files in the order of names, a directory that is named like a file, a name without a
    stem, and a name with another ending. -/
theorem discover_wildcard_folders :
    let children : List (String × Entry) :=
      [(".sol", .file []), ("a", .directory [("b.md", .file []), ("b.sol", .file [])]), ("a.sol", .file []),
        ("x.sol", .directory [("y.sol", .file [])])]
    let fs : FileSystem := ⟨.directory [("src", .directory children)], []⟩
    let directory : Path := ⟨0, [RawText.ofString "src"]⟩
    fs.root.Distinct ∧ fs.entry? directory = .ok (some (.directory children)) ∧
      RawText.ofString "*" ∈ [RawText.ofString "Missing", RawText.ofString "*"] ∧
      ∃ files, discover fs directory [RawText.ofString "Missing", RawText.ofString "*"] = .ok files ∧
        (∀ file, file ∈ files ↔ ∃ folders stem content, stem ≠ "" ∧
          file = directory.below (folders ++ [stem ++ ".sol"]) ∧
          (Entry.directory children).get? (folders ++ [stem ++ ".sol"]) = some (.file content)) ∧
        files.Nodup ∧ files.Pairwise directory.Before := by
  intro children fs directory
  have tree : fs.root.Distinct := by
    refine .directory (by decide) fun child hc => ?_
    obtain rfl := List.mem_singleton.mp hc
    refine .directory (by decide) fun child hc => ?_
    simp only [children, List.mem_cons, List.not_mem_nil, or_false] at hc
    rcases hc with rfl | rfl | rfl | rfl
    · exact .file []
    · refine .directory (by decide) fun child hc => ?_
      simp only [List.mem_cons, List.not_mem_nil, or_false] at hc
      rcases hc with rfl | rfl <;> exact .file []
    · exact .file []
    · exact .directory (by decide) fun child hc => List.mem_singleton.mp hc ▸ .file []
  have place : fs.locate directory = .ok ["src"] := by decide +kernel
  have root : fs.entry? directory = .ok (some (.directory children)) := by
    rw [FileSystem.entry?, place]
    rfl
  have star : RawText.ofString "*" ∈ [RawText.ofString "Missing", RawText.ofString "*"] := by decide
  have leaf {path : Path} {content : List UInt8} (chain : List String) : ¬OutOfReach fs path (.file content) chain :=
    not_outOfReach_file
  have short : ∀ chain, ¬OutOfReach fs directory (.directory children) chain := by
    refine not_outOfReach_directory (by decide) fun child hc => ?_
    simp only [children, List.mem_cons, List.not_mem_nil, or_false] at hc
    rcases hc with rfl | rfl | rfl | rfl
    · exact ⟨by decide +kernel, leaf⟩
    · refine ⟨by decide +kernel, not_outOfReach_directory (by decide) fun child hc => ?_⟩
      simp only [List.mem_cons, List.not_mem_nil, or_false] at hc
      rcases hc with rfl | rfl <;> exact ⟨by decide +kernel, leaf⟩
    · exact ⟨by decide +kernel, leaf⟩
    · refine ⟨by decide +kernel, not_outOfReach_directory (by decide) fun child hc => ?_⟩
      obtain rfl := List.mem_singleton.mp hc
      exact ⟨by decide +kernel, leaf⟩
  refine ⟨tree, root, star, ?_⟩
  rcases discover_wildcard fs directory _ tree root star with ⟨files, found, -, exact⟩ | ⟨chain, out, -, -⟩
  · exact ⟨files, found, exact⟩
  · exact absurd out (short chain)

/-- A path to a directory that goes there and back before. -/
def Path.detour (turns : Nat) : Path :=
  ⟨0, ((List.replicate turns ["s", ".."]).flatten ++ ["s"]).map RawText.ofString⟩

/-- A source directory that is named by a path of many double dots. The directory is found, but the path of the file in
    it has two bytes more than a path may have. -/
theorem discover_wildcard_long_path :
    let fs : FileSystem := ⟨.directory [("s", .directory [("a.sol", .file [])])], []⟩
    fs.root.Distinct ∧ fs.isDirectory (.detour 818) = .ok true ∧
      fs.root.get? ["s", "a.sol"] = some (.file []) ∧
      ∀ files, discover fs (.detour 818) [RawText.ofString "*"] ≠ .ok files := by
  intro fs
  have tree : fs.root.Distinct :=
    .directory (by decide) fun child hc => List.mem_singleton.mp hc ▸
      .directory (by decide) fun child hc => List.mem_singleton.mp hc ▸ .file []
  have located : fs.locate (.detour 818) = .ok ["s"] := by decide +kernel
  have long : fs.locate ((Path.detour 818).child "a.sol") = .error .nameTooLong := by decide +kernel
  have root : fs.entry? (.detour 818) = .ok (some (.directory [("a.sol", .file [])])) := by
    rw [FileSystem.entry?, located]
    rfl
  have there : fs.isDirectory (.detour 818) = .ok true := by
    rw [FileSystem.isDirectory, root]
    rfl
  refine ⟨tree, there, rfl, fun files found => ?_⟩
  rw [discover_star_of_long_child root List.mem_cons_self long] at found
  cases found

end SolidityLint

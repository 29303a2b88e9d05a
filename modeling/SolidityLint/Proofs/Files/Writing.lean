import SolidityLint.Proofs.Files.Following

/-! What making directories and writing a file do to a tree. Each of them changes what stands at one place, where no
    directory was (`FileSystem.Puts`). Making a directory with those above it does this for some of the places on the
    way, whether it comes to its end or not (`FileSystem.Opens`), and once it has succeeded it does nothing more. -/

namespace SolidityLint.FileSystem

/-- What stands at the place of a path changes, where no directory was, and nothing else does. -/
structure Puts (before after : FileSystem) (path : Path) (place : List String) (node : Node) : Prop where
  workingDirectory : after.workingDirectory = before.workingDirectory
  distinct : before.root.Distinct → after.root.Distinct
  free : before.root.nodeAt? place ≠ some .directory
  nodes : ∀ other, after.root.nodeAt? other = if other = place then some node else before.root.nodeAt? other
  target : ∃ folder name, before.target path = .ok (folder, name) ∧ place = folder ++ [name]

namespace Puts

variable {before after : FileSystem} {path : Path} {place : List String} {node : Node}

theorem grows (h : Puts before after path place node) : Grows before after where
  workingDirectory := h.workingDirectory
  distinct := h.distinct
  directories other there := by
    rw [h.nodes, if_neg, there]
    rintro rfl
    exact h.free there
  present other there := by
    rw [h.nodes]
    split
    · rfl
    · exact there

theorem located (h : Puts before after path place node) : after.locate path = .ok place := by
  obtain ⟨folder, name, found, rfl⟩ := h.target
  exact locate_eq_of_target (h.grows.target found) (by rw [h.nodes, if_pos rfl]; rfl)

theorem nodeAt?_place (h : Puts before after path place node) : after.root.nodeAt? place = some node := by
  rw [h.nodes, if_pos rfl]

end Puts

theorem puts_set {fs : FileSystem} {path : Path} {folder : List String} {name : String}
    (found : fs.target path = .ok (folder, name)) (free : fs.root.nodeAt? (folder ++ [name]) ≠ some .directory)
    {new : Entry} (own : new.Distinct) (leaf : new.IsLeaf) :
    Puts fs { fs with root := fs.root.set (folder ++ [name]) new } path (folder ++ [name]) new.node := by
  obtain ⟨-, -, -, -, here, -⟩ := target_eq_ok_iff.mp found
  exact ⟨rfl, fun h => h.set own _, free, Entry.nodeAt?_set_leaf here free leaf, folder, name, found, rfl⟩

/-! ### One directory -/

variable {fs after : FileSystem} {path : Path}

theorem makeDirectory_eq_ok (h : fs.makeDirectory path = .ok after) :
    ∃ place, fs.root.nodeAt? place = none ∧ Puts fs after path place .directory := by
  unfold makeDirectory at h
  split at h
  · cases h
  · rename_i folder name found
    split at h
    · cases h
    · rename_i absent
      have absent : fs.root.nodeAt? (folder ++ [name]) = none := by simpa [Entry.nodeAt?] using absent
      obtain rfl := Except.ok.inj h
      exact ⟨folder ++ [name], absent, puts_set found (by simp [absent]) (.directory .nil (List.forall_mem_nil _)) Entry.isLeaf_directory_nil⟩

theorem isDirectory_of_makeDirectory (h : fs.makeDirectory path = .ok after) : after.isDirectory path = .ok true := by
  obtain ⟨place, -, puts⟩ := makeDirectory_eq_ok h
  exact isDirectory_eq_true_iff.mpr ⟨place, puts.located, puts.nodeAt?_place⟩

/-- A directory is made, or the tree stays as it is; if there is no failure the directory is there. -/
theorem ensureDirectory_cases (fs : FileSystem) (path : Path) :
    (∃ after, fs.makeDirectory path = .ok after ∧ fs.ensureDirectory path = (after, .ok ())) ∨
      ∃ e, fs.makeDirectory path = .error e ∧
        (fs.ensureDirectory path = (fs, .ok ()) ∧ fs.isDirectory path = .ok true ∨
          ∃ e', fs.ensureDirectory path = (fs, .error e') ∧
            (fs.isDirectory path = .ok false ∧ e' = e ∨ fs.isDirectory path = .error e')) := by
  unfold ensureDirectory
  cases fs.makeDirectory path with
  | ok after => exact Or.inl ⟨after, rfl, rfl⟩
  | error e =>
    refine Or.inr ⟨e, rfl, ?_⟩
    cases fs.isDirectory path with
    | error e' => exact Or.inr ⟨e', rfl, Or.inr rfl⟩
    | ok isThere =>
      cases isThere with
      | true => exact Or.inl ⟨rfl, rfl⟩
      | false => exact Or.inr ⟨e, rfl, Or.inl ⟨rfl, rfl⟩⟩

theorem isDirectory_of_ensureDirectory (h : fs.ensureDirectory path = (after, .ok ())) :
    after.isDirectory path = .ok true := by
  rcases ensureDirectory_cases fs path with ⟨_, made, ensured⟩ | ⟨_, -, ⟨ensured, there⟩ | ⟨_, ensured, -⟩⟩
  · rw [ensured] at h
    cases h
    exact isDirectory_of_makeDirectory made
  · rw [ensured] at h
    cases h
    exact there
  · rw [ensured] at h
    cases h

/-! ### Directories on the way -/

/-- Nothing has changed but that there are new directories at some of the first places on the way along a path. -/
structure Opens (before after : FileSystem) (path : Path) (count : Nat) : Prop where
  grows : Grows before after
  nodes : ∀ place, after.root.nodeAt? place = before.root.nodeAt? place ∨
    before.root.nodeAt? place = none ∧ after.root.nodeAt? place = some .directory ∧
      ∃ reached, 0 < reached ∧ reached ≤ count ∧ after.locate (path.upTo reached) = .ok place

namespace Opens

variable {before middle after : FileSystem} {path : Path} {count : Nat}

theorem refl (fs : FileSystem) (path : Path) (count : Nat) : Opens fs fs path count :=
  ⟨.refl fs, fun _ => Or.inl rfl⟩

theorem mono (h : Opens before after path count) {more : Nat} (le : count ≤ more) : Opens before after path more where
  grows := h.grows
  nodes place := by
    refine (h.nodes place).imp_right ?_
    rintro ⟨absent, here, reached, pos, bound, located⟩
    exact ⟨absent, here, reached, pos, Nat.le_trans bound le, located⟩

theorem trans (first : Opens before middle path count) (second : Opens middle after path count) :
    Opens before after path count where
  grows := first.grows.trans second.grows
  nodes place := by
    rcases second.nodes place with same | ⟨absent, here, way⟩
    · rw [same]
      refine (first.nodes place).imp_right ?_
      rintro ⟨absent, here, reached, pos, bound, located⟩
      exact ⟨absent, here, reached, pos, bound, second.grows.locate located⟩
    · rcases first.nodes place with same | ⟨-, here', -⟩
      · exact Or.inr ⟨same ▸ absent, here, way⟩
      · rw [here'] at absent
        cases absent

theorem of_makeDirectory (pos : 0 < count) (h : before.makeDirectory (path.upTo count) = .ok after) :
    Opens before after path count := by
  obtain ⟨made, absent, puts⟩ := makeDirectory_eq_ok h
  refine ⟨puts.grows, fun place => ?_⟩
  by_cases same : place = made
  · subst same
    exact Or.inr ⟨absent, puts.nodeAt?_place, count, pos, Nat.le_refl count, puts.located⟩
  · exact Or.inl (by rw [puts.nodes, if_neg same])

theorem of_ensureDirectory (pos : 0 < count) (fs : FileSystem) (path : Path) :
    Opens fs (fs.ensureDirectory (path.upTo count)).1 path count := by
  rcases ensureDirectory_cases fs (path.upTo count) with
    ⟨after, made, ensured⟩ | ⟨_, -, ⟨ensured, -⟩ | ⟨_, ensured, -⟩⟩
  · rw [ensured]
    exact of_makeDirectory pos made
  · rw [ensured]
    exact .refl fs path count
  · rw [ensured]
    exact .refl fs path count

/-- A file is where it was, with the same content. -/
theorem file (h : Opens before after path count) {place : List String} {content : List UInt8} :
    after.root.nodeAt? place = some (.file content) ↔ before.root.nodeAt? place = some (.file content) := by
  rcases h.nodes place with same | ⟨absent, here, -⟩
  · rw [same]
  · rw [absent, here]
    exact ⟨nofun, nofun⟩

end Opens

/-- The directory at no part of a path is where the path starts, so it cannot be made. -/
theorem ensureParts_zero (fs : FileSystem) (path : Path) : (fs.ensureParts path 0).1 = fs := by
  rw [ensureParts]
  rcases ensureDirectory_cases fs { path with parts := [] } with ⟨_, made, -⟩ | ⟨_, -, ⟨ensured, -⟩ | ⟨_, ensured, -⟩⟩
  · obtain ⟨_, -, puts⟩ := makeDirectory_eq_ok made
    obtain ⟨_, _, found, -⟩ := puts.target
    obtain ⟨_, last, -⟩ := target_eq_ok_iff.mp found
    cases last
  · rw [ensured]
  · rw [ensured]

/-- A directory of which the one above is missing is made after that one, unless that one cannot be made. -/
theorem ensureParts_succ_cases (fs : FileSystem) (path : Path) (count : Nat) :
    ((∀ here, fs.makeDirectory (path.upTo (count + 1)) ≠ .error ⟨.missing, here⟩) ∧
        fs.ensureParts path (count + 1) = fs.ensureDirectory (path.upTo (count + 1))) ∨
      (∃ here, fs.makeDirectory (path.upTo (count + 1)) = .error ⟨.missing, here⟩) ∧
        ((∃ after, fs.ensureParts path count = (after, .ok ()) ∧
            fs.ensureParts path (count + 1) = after.ensureDirectory (path.upTo (count + 1))) ∨
          ∃ after e, fs.ensureParts path count = (after, .error e) ∧
            fs.ensureParts path (count + 1) = (after, .error e)) := by
  rw [ensureParts]
  split
  · rename_i here missing
    refine Or.inr ⟨⟨here, missing⟩, ?_⟩
    split
    · rename_i after above
      exact Or.inl ⟨after, above, rfl⟩
    · rename_i after e above
      exact Or.inr ⟨after, e, above, rfl⟩
  · rename_i other
    exact Or.inl ⟨other, rfl⟩

theorem opens_ensureParts (fs : FileSystem) (path : Path) (count : Nat) :
    Opens fs (fs.ensureParts path count).1 path count := by
  induction count with
  | zero =>
    rw [ensureParts_zero]
    exact .refl fs path 0
  | succ count ih =>
    have more := ih.mono (Nat.le_succ count)
    rcases ensureParts_succ_cases fs path count with ⟨-, made⟩ | ⟨-, ⟨after, above, made⟩ | ⟨after, e, above, made⟩⟩
    · rw [made]
      exact .of_ensureDirectory (Nat.succ_pos count) fs path
    · rw [above] at more
      rw [made]
      exact more.trans (.of_ensureDirectory (Nat.succ_pos count) after path)
    · rw [above] at more
      rw [made]
      exact more

theorem isDirectory_of_ensureParts {count : Nat} (h : fs.ensureParts path count = (after, .ok ())) :
    after.isDirectory (path.upTo count) = .ok true := by
  cases count with
  | zero => exact isDirectory_of_ensureDirectory (ensureParts.eq_1 fs path ▸ h)
  | succ count =>
    rcases ensureParts_succ_cases fs path count with ⟨-, made⟩ | ⟨-, ⟨_, above, made⟩ | ⟨_, e, above, made⟩⟩
    · exact isDirectory_of_ensureDirectory (made ▸ h)
    · exact isDirectory_of_ensureDirectory (made ▸ h)
    · rw [made] at h
      cases h

theorem opens_of_ensureDirectories {made : Except FileError Unit} (h : fs.ensureDirectories path = (after, made)) :
    Opens fs after path path.parts.length := by
  have opens := opens_ensureParts fs path path.parts.length
  rw [ensureDirectories] at h
  rwa [h] at opens

/-! ### A file -/

theorem write_eq_ok {content : List UInt8} (h : fs.write path content = .ok after) :
    ∃ place, Puts fs after path place (.file content) := by
  unfold write at h
  split at h
  · cases h
  · cases h
  · rename_i folder name found
    split at h
    · cases h
    · rename_i free
      obtain rfl := Except.ok.inj h
      refine ⟨folder ++ [name], puts_set found (fun there => ?_) (.file content) (Entry.isLeaf_file content)⟩
      obtain ⟨children, there⟩ := Entry.nodeAt?_eq_directory_iff.mp there
      exact free children there

/-- What is written is read. -/
theorem read_of_write {content : List UInt8} (h : fs.write path content = .ok after) :
    after.read path = .ok content := by
  obtain ⟨place, puts⟩ := write_eq_ok h
  exact read_eq_ok_iff.mpr ⟨place, puts.located, puts.nodeAt?_place⟩

/-! ### A file and the directories on the way to it -/

/-- How a tree is left when a file is written at a path: what is new is a directory on the way to it, and what has
    changed is the file there. -/
structure Leaves (before after : FileSystem) (path : Path) (content : List UInt8) : Prop where
  grows : Grows before after
  nodes : ∀ place, after.root.nodeAt? place = before.root.nodeAt? place ∨
    (before.root.nodeAt? place = none ∧ after.root.nodeAt? place = some .directory ∧
      ∃ count < path.parts.length, after.locate (path.upTo count) = .ok place) ∨
    (before.root.nodeAt? place ≠ some .directory ∧ after.root.nodeAt? place = some (.file content) ∧
      after.locate path = .ok place)

theorem leaves_of_ensureDirectories {fs middle : FileSystem} {path : Path} {made : Except FileError Unit}
    (h : fs.ensureDirectories path.parent = (middle, made)) (content : List UInt8) :
    Leaves fs middle path content := by
  have opens := opens_of_ensureDirectories h
  refine ⟨opens.grows, fun place => (opens.nodes place).imp_right fun made => Or.inl ?_⟩
  obtain ⟨absent, here, reached, pos, bound, located⟩ := made
  have length : path.parent.parts.length = path.parts.length - 1 := List.length_dropLast
  rw [length] at bound
  rw [path.parent_eq_upTo, Path.upTo_upTo bound] at located
  exact ⟨absent, here, reached, by omega, located⟩

theorem Leaves.write {before middle after : FileSystem} {path : Path} {content : List UInt8}
    (h : Leaves before middle path content) (written : middle.write path content = .ok after) :
    Leaves before after path content := by
  obtain ⟨written, puts⟩ := write_eq_ok written
  refine ⟨h.grows.trans puts.grows, fun place => ?_⟩
  by_cases same : place = written
  · subst same
    refine Or.inr (Or.inr ⟨fun there => ?_, puts.nodeAt?_place, puts.located⟩)
    exact puts.free (h.grows.directories place there)
  · rw [puts.nodes, if_neg same]
    refine (h.nodes place).imp_right (Or.imp ?_ ?_)
    · rintro ⟨absent, here, count, bound, located⟩
      exact ⟨absent, here, count, bound, puts.grows.locate located⟩
    · rintro ⟨free, here, located⟩
      exact ⟨free, here, puts.grows.locate located⟩

end SolidityLint.FileSystem

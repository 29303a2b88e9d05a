import SolidityLint.Proofs.Files.Writing

/-! Making directories and writing a file once more. What succeeded the first time succeeds again and changes nothing.
    A directory that could not be made after some above it were made cannot be made the second time either, but what
    is said about it can differ: then the whole path is tried at once, and it leads past what is in the way
    (`FileSystem.Blocked`). -/

namespace SolidityLint

/-- What is said of a path that leads past an obstacle: a file in the way is no directory. -/
def Obstacle.past (obstacle : Obstacle) : Obstacle :=
  if obstacle = .exists then .notDirectory else obstacle

namespace FileSystem

variable {fs after : FileSystem} {path : Path}

/-! ### Where a new directory would be -/

theorem target_of_parts_nil (free : startObstacle? path = none) (none : path.parts = []) :
    fs.target path = .error .exists := by
  rw [target, free, none]
  rfl

section

variable {part : RawText} {folder : List String} (free : startObstacle? path = none)
  (last : path.parts.getLast? = some part)

include free last

theorem target_of_parent (parent : fs.locate path.parent = .ok folder)
    (here : fs.root.nodeAt? folder = some .directory) :
    fs.target path = if part = RawText.ofString ".." then .error .exists else (nameOf part).map (folder, ·) := by
  obtain ⟨children, found⟩ := Entry.nodeAt?_eq_directory_iff.mp here
  rw [target, free, last]
  simp only [parent, bind, Except.bind, found]

theorem target_of_parent_file {content : List UInt8} (parent : fs.locate path.parent = .ok folder)
    (here : fs.root.nodeAt? folder = some (.file content)) : fs.target path = .error .notDirectory := by
  rw [target, free, last]
  simp only [parent, bind, Except.bind, Entry.nodeAt?_eq_file_iff.mp here]

theorem target_of_parent_error {obstacle : Obstacle} (parent : fs.locate path.parent = .error obstacle) :
    fs.target path = .error obstacle := by
  rw [target, free, last]
  simp only [parent, bind, Except.bind]

end

/-! ### What succeeded -/

theorem makeDirectory_of_isDirectory (there : fs.isDirectory path = .ok true) :
    fs.makeDirectory path = .error ⟨.exists, path⟩ := by
  obtain ⟨place, located, -⟩ := isDirectory_eq_true_iff.mp there
  have free := (locate_eq_ok_iff.mp located).1
  cases last : path.parts.getLast? with
  | none => rw [makeDirectory, target_of_parts_nil free (List.getLast?_eq_none_iff.mp last)]
  | some part =>
    obtain ⟨folder, parent, entered⟩ := exists_locate_parent last located
    obtain ⟨above, way⟩ := enter_eq_ok_iff.mp entered
    rw [makeDirectory, target_of_parent free last parent above]
    rcases way with ⟨up, -⟩ | ⟨down, name, named, rfl, there⟩
    · rw [if_pos up]
    · have there : (fs.root.get? (folder ++ [name])).isSome = true := by simpa [Entry.nodeAt?] using there
      rw [if_neg down, named]
      exact if_pos there

theorem ensureDirectory_of_isDirectory (there : fs.isDirectory path = .ok true) :
    fs.ensureDirectory path = (fs, .ok ()) := by
  rw [ensureDirectory, makeDirectory_of_isDirectory there, there]
  rfl

theorem ensureParts_of_isDirectory {count : Nat} (there : fs.isDirectory (path.upTo count) = .ok true) :
    fs.ensureParts path count = (fs, .ok ()) := by
  cases count with
  | zero => exact ensureDirectory_of_isDirectory there
  | succ count =>
    rcases ensureParts_succ_cases fs path count with ⟨-, made⟩ | ⟨⟨here, missing⟩, -⟩
    · rw [made, ensureDirectory_of_isDirectory there]
    · rw [makeDirectory_of_isDirectory there] at missing
      cases missing

/-- Directories that were made are there in every tree that has grown from the one with them. -/
theorem ensureDirectories_again {middle : FileSystem} (h : fs.ensureDirectories path = (middle, .ok ()))
    (grows : Grows middle after) : after.ensureDirectories path = (after, .ok ()) :=
  ensureParts_of_isDirectory (grows.isDirectory (isDirectory_of_ensureParts h))

/-- A file that was written is written again with the same content. -/
theorem write_again {content : List UInt8} (h : fs.write path content = .ok after) :
    after.write path content = .ok after := by
  have puts := write_eq_ok h
  unfold write at h
  split at h
  · cases h
  · cases h
  · rename_i folder name found
    split at h
    · cases h
    · obtain rfl := Except.ok.inj h
      obtain ⟨place, puts⟩ := puts
      obtain ⟨_, _, found', rfl⟩ := puts.target
      obtain ⟨rfl, rfl⟩ := Prod.mk.inj (Except.ok.inj (found.symm.trans found'))
      rw [write, puts.grows.target found]
      dsimp only
      rw [Entry.nodeAt?_eq_file_iff.mp puts.nodeAt?_place, Entry.set_set]

/-! ### What failed -/

/-- What stands in the way behind the first parts of a path, in a directory that is there: a name that is too long, or
    a file. -/
structure Blocked (fs : FileSystem) (path : Path) (reached : Nat) (obstacle : Obstacle) (folder : List String)
    (part : RawText) : Prop where
  next : path.parts[reached]? = some part
  above : fs.locate (path.upTo reached) = .ok folder
  here : fs.root.nodeAt? folder = some .directory
  down : part ≠ RawText.ofString ".."
  cause : nameOf part = .error .nameTooLong ∧ obstacle = .nameTooLong ∨
    ∃ name content, nameOf part = .ok name ∧ fs.root.nodeAt? (folder ++ [name]) = some (.file content) ∧
      obstacle = .exists

theorem parts_upTo_succ {reached : Nat} {part : RawText} (next : path.parts[reached]? = some part) :
    (path.upTo (reached + 1)).parts = (path.upTo reached).parts ++ [part] := by
  simp [Path.upTo, List.take_add_one, next]

theorem startObstacle?_upTo {count more : Nat} (le : count ≤ more) (free : startObstacle? (path.upTo more) = none) :
    startObstacle? (path.upTo count) = none := by
  rw [← Path.upTo_upTo le]
  exact startObstacle?_take free count

theorem locate_upTo_succ {reached : Nat} {part : RawText} (next : path.parts[reached]? = some part)
    (free : startObstacle? (path.upTo (reached + 1)) = none) :
    fs.locate (path.upTo (reached + 1)) =
      (fs.locate (path.upTo reached)).bind fun folder => enter fs.root folder part := by
  rw [locate, free, locate, startObstacle?_upTo (Nat.le_succ reached) free]
  dsimp only
  rw [parts_upTo_succ next, follow_concat]
  rfl

theorem enter_of_directory {root : Entry} {folder : List String} {part : RawText}
    (here : root.nodeAt? folder = some .directory) (down : part ≠ RawText.ofString "..") :
    enter root folder part = (nameOf part).bind fun name =>
      if (root.nodeAt? (folder ++ [name])).isSome then .ok (folder ++ [name]) else .error .missing := by
  rw [enter, here]
  exact if_neg down

namespace Blocked

variable {reached count : Nat} {obstacle : Obstacle} {folder : List String} {part : RawText}

/-- Nothing is found behind a name that is too long. -/
theorem locate_of_tooLong (h : Blocked fs path reached obstacle folder part) (long : nameOf part = .error .nameTooLong)
    (past : reached < count) (bound : count ≤ path.parts.length) (free : startObstacle? (path.upTo count) = none) :
    fs.locate (path.upTo count) = .error .nameTooLong := by
  induction past with
  | refl =>
    rw [locate_upTo_succ h.next free, h.above]
    change enter fs.root folder part = _
    rw [enter_of_directory h.here h.down, long]
    rfl
  | @step count past ih =>
    have next := List.getElem?_eq_getElem (show count < path.parts.length by omega)
    rw [locate_upTo_succ next free, ih (by omega) (startObstacle?_upTo (Nat.le_succ count) free)]
    rfl

theorem locate_of_file (h : Blocked fs path reached obstacle folder part) {name : String} {content : List UInt8}
    (named : nameOf part = .ok name) (there : fs.root.nodeAt? (folder ++ [name]) = some (.file content))
    (free : startObstacle? (path.upTo (reached + 1)) = none) :
    fs.locate (path.upTo (reached + 1)) = .ok (folder ++ [name]) := by
  rw [locate_upTo_succ h.next free, h.above]
  change enter fs.root folder part = _
  rw [enter_of_directory h.here h.down, named]
  change (if (fs.root.nodeAt? (folder ++ [name])).isSome then _ else _) = _
  rw [there]
  rfl

/-- Nothing is found behind a file. -/
theorem locate_past_file (h : Blocked fs path reached obstacle folder part) {name : String} {content : List UInt8}
    (named : nameOf part = .ok name) (there : fs.root.nodeAt? (folder ++ [name]) = some (.file content))
    (past : reached + 1 < count) (bound : count ≤ path.parts.length)
    (free : startObstacle? (path.upTo count) = none) : fs.locate (path.upTo count) = .error .notDirectory := by
  induction past with
  | refl =>
    have next := List.getElem?_eq_getElem (show reached + 1 < path.parts.length by omega)
    have located := h.locate_of_file named there (startObstacle?_upTo (Nat.le_succ (reached + 1)) free)
    rw [locate_upTo_succ next free, located]
    change enter fs.root (folder ++ [name]) _ = _
    rw [enter, there]
  | @step count past ih =>
    have next := List.getElem?_eq_getElem (show count < path.parts.length by omega)
    rw [locate_upTo_succ next free, ih (by omega) (startObstacle?_upTo (Nat.le_succ count) free)]
    rfl

/-- What is said of the path up to the obstacle, and of one that leads past it. -/
def verdict (obstacle : Obstacle) (reached count : Nat) : Obstacle :=
  if count = reached + 1 then obstacle else obstacle.past

theorem makeDirectory (h : Blocked fs path reached obstacle folder part) (past : reached < count)
    (bound : count ≤ path.parts.length) (free : startObstacle? (path.upTo count) = none) :
    fs.makeDirectory (path.upTo count) = .error ⟨verdict obstacle reached count, path.upTo count⟩ := by
  unfold verdict
  split
  · rename_i own
    subst own
    have last : (path.upTo (reached + 1)).parts.getLast? = some part := by
      rw [parts_upTo_succ h.next, List.getLast?_concat]
    have parent : fs.locate (path.upTo (reached + 1)).parent = .ok folder := by
      rw [Path.parent_upTo_succ bound, h.above]
    rw [FileSystem.makeDirectory, target_of_parent free last parent h.here, if_neg h.down]
    rcases h.cause with ⟨long, rfl⟩ | ⟨name, content, named, there, rfl⟩
    · rw [long]
      rfl
    · rw [named]
      change (if (fs.root.get? (folder ++ [name])).isSome then _ else _) = _
      rw [Entry.nodeAt?_eq_file_iff.mp there]
      rfl
  · rename_i behind
    -- The path leads past the obstacle, so its parent leads there or past it too.
    obtain ⟨before, rfl⟩ : ∃ before, count = before + 1 := ⟨count - 1, by omega⟩
    have next := List.getElem?_eq_getElem (show before < path.parts.length by omega)
    have last : (path.upTo (before + 1)).parts.getLast? = some path.parts[before] := by
      rw [parts_upTo_succ next, List.getLast?_concat]
    have above := startObstacle?_upTo (Nat.le_succ before) free
    rw [FileSystem.makeDirectory]
    rcases h.cause with ⟨long, rfl⟩ | ⟨name, content, named, there, rfl⟩
    · have parent : fs.locate (path.upTo (before + 1)).parent = .error .nameTooLong := by
        rw [Path.parent_upTo_succ bound]
        exact h.locate_of_tooLong long (by omega) (by omega) above
      rw [target_of_parent_error free last parent]
      rfl
    · have parent : (path.upTo (before + 1)).parent = path.upTo before := Path.parent_upTo_succ bound
      by_cases there' : before = reached + 1
      · subst there'
        rw [target_of_parent_file free last (parent ▸ h.locate_of_file named there above) there]
        rfl
      · rw [target_of_parent_error free last
          (parent ▸ h.locate_past_file named there (by omega) (by omega) above)]
        rfl

theorem isDirectory (h : Blocked fs path reached obstacle folder part) (past : reached < count)
    (bound : count ≤ path.parts.length) (free : startObstacle? (path.upTo count) = none) :
    fs.isDirectory (path.upTo count) = .ok false ∨
      fs.isDirectory (path.upTo count) = .error ⟨verdict obstacle reached count, path.upTo count⟩ := by
  unfold FileSystem.isDirectory FileSystem.entry?
  rcases h.cause with ⟨long, rfl⟩ | ⟨name, content, named, there, rfl⟩
  · have same : verdict .nameTooLong reached count = .nameTooLong := ite_self _
    rw [h.locate_of_tooLong long past bound free, same]
    exact Or.inr rfl
  · by_cases own : count = reached + 1
    · subst own
      rw [h.locate_of_file named there free]
      dsimp only
      rw [Entry.nodeAt?_eq_file_iff.mp there]
      exact Or.inl rfl
    · rw [h.locate_past_file named there (by omega) bound free]
      exact Or.inl rfl

theorem verdict_ne_missing (h : Blocked fs path reached obstacle folder part) :
    verdict obstacle reached count ≠ .missing := by
  unfold verdict
  rcases h.cause with ⟨-, rfl⟩ | ⟨_, _, -, -, rfl⟩ <;> split <;> decide

theorem ensureDirectory (h : Blocked fs path reached obstacle folder part) (past : reached < count)
    (bound : count ≤ path.parts.length) (free : startObstacle? (path.upTo count) = none) :
    fs.ensureDirectory (path.upTo count) = (fs, .error ⟨verdict obstacle reached count, path.upTo count⟩) := by
  rw [FileSystem.ensureDirectory, h.makeDirectory past bound free]
  dsimp only
  rcases h.isDirectory past bound free with there | there
  · rw [there]
    rfl
  · rw [there]

/-- Nothing is made, as all that can be made is there. -/
theorem ensureParts (h : Blocked fs path reached obstacle folder part) (past : reached < count)
    (bound : count ≤ path.parts.length) (free : startObstacle? (path.upTo count) = none) :
    fs.ensureParts path count = (fs, .error ⟨verdict obstacle reached count, path.upTo count⟩) := by
  obtain ⟨before, rfl⟩ : ∃ before, count = before + 1 := ⟨count - 1, by omega⟩
  rcases ensureParts_succ_cases fs path before with ⟨-, made⟩ | ⟨⟨here, missing⟩, -⟩
  · rw [made, h.ensureDirectory past bound free]
  · rw [h.makeDirectory past bound free] at missing
    exact absurd (congrArg FileError.obstacle (Except.error.inj missing)) h.verdict_ne_missing

end Blocked

/-- In a directory that is there only a name that is too long and a file are in the way of a new one. -/
theorem blocked_of_ensureDirectory {count : Nat} {name : String} {e : FileError}
    (there : fs.isDirectory (path.upTo count) = .ok true)
    (next : path.parts[count]? = some (RawText.ofString name)) (free : startObstacle? (path.upTo (count + 1)) = none)
    (failed : fs.ensureDirectory (path.upTo (count + 1)) = (after, .error e)) :
    after = fs ∧ ∃ obstacle folder, e = ⟨obstacle, path.upTo (count + 1)⟩ ∧
      Blocked fs path count obstacle folder (RawText.ofString name) := by
  obtain ⟨folder, above, here⟩ := isDirectory_eq_true_iff.mp there
  have bound : count < path.parts.length := (List.getElem?_eq_some_iff.mp next).1
  have last : (path.upTo (count + 1)).parts.getLast? = some (RawText.ofString name) := by
    rw [parts_upTo_succ next, List.getLast?_concat]
  have parent : fs.locate (path.upTo (count + 1)).parent = .ok folder := by
    rw [Path.parent_upTo_succ bound, above]
  have entered : fs.locate (path.upTo (count + 1)) = enter fs.root folder (RawText.ofString name) := by
    rw [locate_upTo_succ next free, above]
    rfl
  have absent_of_isDirectory (there : fs.isDirectory (path.upTo (count + 1)) = .ok true) : False := by
    rw [ensureDirectory_of_isDirectory there] at failed
    cases failed
  have down : RawText.ofString name ≠ RawText.ofString ".." := fun up => by
    refine absent_of_isDirectory (isDirectory_eq_true_iff.mpr ⟨folder.dropLast, ?_, Entry.nodeAt?_dropLast here⟩)
    rw [entered]
    exact enter_eq_ok_iff.mpr ⟨here, Or.inl ⟨up, rfl⟩⟩
  -- What is in the way says what the failure is.
  have blocked_of {obstacle : Obstacle} (blocked : Blocked fs path count obstacle folder (RawText.ofString name)) :
      after = fs ∧ ∃ obstacle folder, e = ⟨obstacle, path.upTo (count + 1)⟩ ∧
        Blocked fs path count obstacle folder (RawText.ofString name) := by
    have ensured := blocked.ensureDirectory (Nat.lt_succ_self count) bound free
    rw [Blocked.verdict, if_pos rfl, failed] at ensured
    obtain ⟨rfl, same⟩ := Prod.mk.inj ensured
    exact ⟨rfl, obstacle, folder, Except.error.inj same, blocked⟩
  rcases nameOf_ofString name with named | long
  · cases standing : fs.root.nodeAt? (folder ++ [name]) with
    | none =>
      have missing : fs.root.get? (folder ++ [name]) = none := by simpa [Entry.nodeAt?] using standing
      rw [ensureDirectory, makeDirectory, target_of_parent free last parent here, if_neg down, named] at failed
      simp only [Except.map, missing] at failed
      cases failed
    | some node =>
      cases node with
      | file content => exact blocked_of ⟨next, above, here, down, Or.inr ⟨name, content, named, standing, rfl⟩⟩
      | directory =>
        refine (absent_of_isDirectory (isDirectory_eq_true_iff.mpr ⟨folder ++ [name], ?_, standing⟩)).elim
        rw [entered]
        exact enter_eq_ok_iff.mpr ⟨here, Or.inr ⟨down, name, named, rfl, by rw [standing]; rfl⟩⟩
  · exact blocked_of ⟨next, above, here, down, Or.inl ⟨long, rfl⟩⟩

theorem startObstacle?_of_missing {names : List String} (named : path.parts = names.map RawText.ofString)
    {here : Path} (missing : fs.makeDirectory path = .error ⟨.missing, here⟩) : startObstacle? path = none := by
  cases obstacle : startObstacle? path with
  | none => rfl
  | some reason =>
    have found : fs.target path = .error reason := by rw [target, obstacle]
    rw [makeDirectory, found] at missing
    obtain rfl : reason = .missing := congrArg FileError.obstacle (Except.error.inj missing)
    exact absurd obstacle (startObstacle?_ne_missing named)

/-- If a directory cannot be made although some above it were made, something is in the way behind those. -/
theorem blocked_of_ensureParts {names : List String} (named : path.parts = names.map RawText.ofString) {count : Nat}
    (bound : count ≤ path.parts.length) {e : FileError} (failed : fs.ensureParts path count = (after, .error e)) :
    after = fs ∨ startObstacle? (path.upTo count) = none ∧ ∃ reached obstacle folder part, reached < count ∧
      e = ⟨obstacle, path.upTo (reached + 1)⟩ ∧ Blocked after path reached obstacle folder part := by
  induction count generalizing after e with
  | zero =>
    have same := ensureParts_zero fs path
    rw [failed] at same
    exact Or.inl same
  | succ count ih =>
    have parts : (path.upTo (count + 1)).parts = (names.take (count + 1)).map RawText.ofString := by
      rw [Path.upTo, named, List.map_take]
    rcases ensureParts_succ_cases fs path count with ⟨-, made⟩ | ⟨⟨here, missing⟩, above⟩
    · rw [made] at failed
      rcases ensureDirectory_cases fs (path.upTo (count + 1)) with
        ⟨_, -, ensured⟩ | ⟨_, -, ⟨ensured, -⟩ | ⟨_, ensured, -⟩⟩
      · rw [ensured] at failed
        cases failed
      · rw [ensured] at failed
        cases failed
      · rw [ensured] at failed
        exact Or.inl (Prod.mk.inj failed).1.symm
    · have free := startObstacle?_of_missing parts missing
      rcases above with ⟨middle, above, made⟩ | ⟨middle, e', above, made⟩
      · rw [made] at failed
        obtain ⟨name, next⟩ : ∃ name, path.parts[count]? = some (RawText.ofString name) := by
          have inside : count < names.length := by
            rw [named, List.length_map] at bound
            exact bound
          exact ⟨names[count], by rw [named, List.getElem?_map, List.getElem?_eq_getElem inside]; rfl⟩
        obtain ⟨rfl, obstacle, folder, rfl, blocked⟩ :=
          blocked_of_ensureDirectory (isDirectory_of_ensureParts above) next free failed
        exact Or.inr ⟨free, count, obstacle, folder, _, Nat.lt_succ_self count, rfl, blocked⟩
      · have above := above.trans (made.symm.trans failed)
        refine (ih (by omega) above).imp_right ?_
        rintro ⟨-, reached, obstacle, folder, part, past, rfl, blocked⟩
        exact ⟨free, reached, obstacle, folder, part, by omega, rfl, blocked⟩

end FileSystem

end SolidityLint

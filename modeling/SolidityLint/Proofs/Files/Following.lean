import SolidityLint.Proofs.Files.Names
import SolidityLint.Proofs.Files.Tree

/-! Where paths lead. A path is followed by one step for each of its parts (`FileSystem.enter`), and a step looks only
    at what stands at the place it starts from and at the one it leads to. So a path that leads somewhere still leads
    there when more has come to the tree (`FileSystem.Grows`). -/

namespace SolidityLint

/-! ### The parts of a path -/

namespace Path

/-- The path with the first parts of a path. -/
def upTo (path : Path) (count : Nat) : Path :=
  { path with parts := path.parts.take count }

theorem upTo_length (path : Path) : path.upTo path.parts.length = path := by
  rw [upTo, List.take_length]

theorem parent_eq_upTo (path : Path) : path.parent = path.upTo (path.parts.length - 1) := by
  rw [parent, upTo, List.dropLast_eq_take]

theorem parent_upTo_succ {path : Path} {count : Nat} (h : count < path.parts.length) :
    (path.upTo (count + 1)).parent = path.upTo count := by
  have length : (path.parts.take (count + 1)).length = count + 1 := by rw [List.length_take]; omega
  simp only [parent, upTo, List.dropLast_eq_take, length, Nat.add_sub_cancel, List.take_take]
  rw [Nat.min_eq_left (Nat.le_succ count)]

theorem upTo_upTo {path : Path} {count more : Nat} (h : count ≤ more) : (path.upTo more).upTo count = path.upTo count := by
  simp [upTo, List.take_take, Nat.min_eq_left h]

end Path

namespace FileSystem

/-! ### One step -/

/-- The place to which one part leads from a place. -/
def enter (root : Entry) (place : List String) (part : RawText) : Except Obstacle (List String) :=
  match root.nodeAt? place with
  | none => .error .missing
  | some (.file _) => .error .notDirectory
  | some .directory =>
    if part = RawText.ofString ".." then .ok place.dropLast
    else do
      let name ← nameOf part
      if (root.nodeAt? (place ++ [name])).isSome then .ok (place ++ [name]) else .error .missing

theorem isSome_nodeAt?_concat {root : Entry} {place : List String} {children : List (String × Entry)}
    (found : root.get? place = some (.directory children)) (name : String) :
    (root.nodeAt? (place ++ [name])).isSome = children.any (·.1 = name) := by
  rw [Entry.nodeAt?, Entry.get?_append, found, Option.bind_some, Entry.get?, Entry.child?]
  cases named : children.find? (·.1 = name) with
  | none =>
    have absent := List.find?_eq_none.mp named
    exact (List.any_eq_false.mpr absent).symm
  | some child =>
    have there := List.any_eq_true.mpr ⟨child, List.mem_of_find?_eq_some named, List.find?_some named⟩
    exact there.symm

theorem follow_cons (root : Entry) (place : List String) (part : RawText) (rest : List RawText) :
    follow root place (part :: rest) = (enter root place part).bind fun next => follow root next rest := by
  rw [follow, enter, Entry.nodeAt?]
  cases found : root.get? place with
  | none => rfl
  | some here =>
    cases here with
    | file content => rfl
    | directory children =>
      simp only [Option.map_some, Entry.node]
      split
      · rfl
      · cases nameOf part with
        | error obstacle => rfl
        | ok name =>
          simp only [bind, Except.bind, ← isSome_nodeAt?_concat found]
          split <;> rfl

theorem follow_append (root : Entry) (place : List String) (front rest : List RawText) :
    follow root place (front ++ rest) = (follow root place front).bind fun next => follow root next rest := by
  induction front generalizing place with
  | nil => rfl
  | cons part front ih =>
    rw [List.cons_append, follow_cons, follow_cons]
    cases enter root place part with
    | error obstacle => rfl
    | ok next => exact ih next

theorem follow_concat (root : Entry) (place : List String) (front : List RawText) (part : RawText) :
    follow root place (front ++ [part]) = (follow root place front).bind fun next => enter root next part := by
  rw [follow_append]
  refine congrArg (Except.bind _) (funext fun next => ?_)
  rw [follow_cons]
  cases enter root next part <;> rfl

theorem enter_eq_ok_iff {root : Entry} {place next : List String} {part : RawText} :
    enter root place part = .ok next ↔ root.nodeAt? place = some .directory ∧
      (part = RawText.ofString ".." ∧ next = place.dropLast ∨
        part ≠ RawText.ofString ".." ∧ ∃ name, nameOf part = .ok name ∧ next = place ++ [name] ∧
          (root.nodeAt? next).isSome = true) := by
  unfold enter
  cases root.nodeAt? place with
  | none => exact ⟨nofun, nofun⟩
  | some here =>
    cases here with
    | file content => exact ⟨nofun, nofun⟩
    | directory =>
      dsimp only
      split
      · rename_i up
        constructor
        · rintro ⟨⟩
          exact ⟨rfl, Or.inl ⟨up, rfl⟩⟩
        · rintro ⟨-, ⟨-, rfl⟩ | ⟨down, -⟩⟩
          · rfl
          · exact absurd up down
      · rename_i down
        cases nameOf part with
        | error obstacle => simp [down, bind, Except.bind]
        | ok name =>
          simp only [bind, Except.bind]
          split
          · rename_i there
            constructor
            · rintro ⟨⟩
              exact ⟨trivial, Or.inr ⟨down, name, rfl, rfl, there⟩⟩
            · rintro ⟨-, ⟨up, -⟩ | ⟨-, _, ⟨⟩, rfl, -⟩⟩
              · exact absurd up down
              · rfl
          · rename_i absent
            refine ⟨nofun, ?_⟩
            rintro ⟨-, ⟨up, -⟩ | ⟨-, _, ⟨⟩, rfl, there⟩⟩
            · exact absurd up down
            · exact absurd there absent

/-! ### Whole paths -/

theorem locate_eq_ok_iff {fs : FileSystem} {path : Path} {place : List String} :
    fs.locate path = .ok place ↔
      startObstacle? path = none ∧ follow fs.root (fs.start path) path.parts = .ok place := by
  unfold locate
  cases startObstacle? path with
  | some obstacle => exact ⟨nofun, nofun⟩
  | none => simp

/-- A path leads through its parent. -/
theorem exists_locate_parent {fs : FileSystem} {path : Path} {place : List String} {part : RawText}
    (last : path.parts.getLast? = some part) (located : fs.locate path = .ok place) :
    ∃ folder, fs.locate path.parent = .ok folder ∧ enter fs.root folder part = .ok place := by
  obtain ⟨free, followed⟩ := locate_eq_ok_iff.mp located
  obtain ⟨front, parts⟩ := List.getLast?_eq_some_iff.mp last
  rw [parts, follow_concat] at followed
  cases above : follow fs.root (fs.start path) front with
  | error obstacle => rw [above] at followed; cases followed
  | ok folder =>
    rw [above] at followed
    refine ⟨folder, locate_eq_ok_iff.mpr ⟨?_, ?_⟩, followed⟩
    · rw [path.parent_eq_upTo]
      exact startObstacle?_take free _
    · have parent : path.parent.parts = front := by rw [Path.parent, parts, List.dropLast_concat]
      rw [parent]
      exact above

theorem entry?_of_located {fs : FileSystem} {path : Path} {place : List String} (h : fs.locate path = .ok place) :
    fs.entry? path = .ok (fs.root.get? place) := by
  unfold entry?
  rw [h]

theorem entry?_eq_some_iff {fs : FileSystem} {path : Path} {entry : Entry} :
    fs.entry? path = .ok (some entry) ↔
      ∃ place, fs.locate path = .ok place ∧ fs.root.get? place = some entry := by
  unfold entry?
  cases fs.locate path with
  | error obstacle => cases obstacle <;> simp
  | ok place => simp

theorem isDirectory_eq_true_iff {fs : FileSystem} {path : Path} :
    fs.isDirectory path = .ok true ↔
      ∃ place, fs.locate path = .ok place ∧ fs.root.nodeAt? place = some .directory := by
  unfold isDirectory entry?
  cases fs.locate path with
  | error obstacle => cases obstacle <;> simp [Except.map]
  | ok place =>
    simp only [Except.ok.injEq, exists_eq_left', Entry.nodeAt?]
    cases fs.root.get? place with
    | none => simp [Except.map]
    | some found => cases found <;> simp [Except.map, Entry.isDirectory, Entry.node]

theorem isFile_eq_true_iff {fs : FileSystem} {path : Path} :
    fs.isFile path = .ok true ↔
      ∃ place content, fs.locate path = .ok place ∧ fs.root.nodeAt? place = some (.file content) := by
  unfold isFile entry?
  cases fs.locate path with
  | error obstacle => cases obstacle <;> simp [Except.map]
  | ok place =>
    simp only [Except.ok.injEq, exists_and_left, exists_eq_left', Entry.nodeAt?]
    cases fs.root.get? place with
    | none => simp [Except.map]
    | some found => cases found <;> simp [Except.map, Entry.isFile, Entry.isDirectory, Entry.node]

theorem read_eq_ok_iff {fs : FileSystem} {path : Path} {content : List UInt8} :
    fs.read path = .ok content ↔
      ∃ place, fs.locate path = .ok place ∧ fs.root.nodeAt? place = some (.file content) := by
  unfold read
  cases fs.locate path with
  | error obstacle => simp
  | ok place =>
    simp only [Except.ok.injEq, exists_eq_left', Entry.nodeAt?]
    cases fs.root.get? place with
    | none => simp
    | some found => cases found <;> simp [Entry.node]

theorem read_of_entry? {fs : FileSystem} {path : Path} {content : List UInt8}
    (there : fs.entry? path = .ok (some (.file content))) : fs.read path = .ok content := by
  obtain ⟨place, located, found⟩ := entry?_eq_some_iff.mp there
  exact read_eq_ok_iff.mpr ⟨place, located, Entry.nodeAt?_eq_file_iff.mpr found⟩

theorem target_eq_ok_iff {fs : FileSystem} {path : Path} {place : List String} {name : String} :
    fs.target path = .ok (place, name) ↔ ∃ part, path.parts.getLast? = some part ∧ startObstacle? path = none ∧
      fs.locate path.parent = .ok place ∧ fs.root.nodeAt? place = some .directory ∧
      part ≠ RawText.ofString ".." ∧ nameOf part = .ok name := by
  unfold target
  cases startObstacle? path with
  | some obstacle => simp
  | none =>
    cases path.parts.getLast? with
    | none => simp
    | some part =>
      dsimp only
      cases fs.locate path.parent with
      | error obstacle => simp [bind, Except.bind]
      | ok parent =>
        simp only [bind, Except.bind]
        cases found : fs.root.get? parent with
        | none =>
          refine ⟨fun h => ?_, ?_⟩
          · cases h
          · rintro ⟨_, -, -, ⟨⟩, there, -⟩
            rw [Entry.nodeAt?, found] at there
            cases there
        | some here =>
          cases here with
          | file content =>
            refine ⟨fun h => ?_, ?_⟩
            · cases h
            · rintro ⟨_, -, -, ⟨⟩, there, -⟩
              rw [Entry.nodeAt?, found] at there
              cases there
          | directory children =>
            have there : fs.root.nodeAt? parent = some .directory := Entry.nodeAt?_eq_directory_iff.mpr ⟨_, found⟩
            dsimp only
            split
            · rename_i up
              simp [up]
            · rename_i down
              cases named : nameOf part with
              | error obstacle => simp [Except.map, named]
              | ok known => simp only [Except.map, Except.ok.injEq, Prod.mk.injEq]; grind

/-- Where a new entry comes to stand the path leads once there is one. -/
theorem locate_eq_of_target {fs : FileSystem} {path : Path} {place : List String} {name : String}
    (h : fs.target path = .ok (place, name)) (there : (fs.root.nodeAt? (place ++ [name])).isSome = true) :
    fs.locate path = .ok (place ++ [name]) := by
  obtain ⟨part, last, free, parent, here, down, named⟩ := target_eq_ok_iff.mp h
  have parts : path.parts = path.parent.parts ++ [part] := by
    obtain ⟨front, hp⟩ := List.getLast?_eq_some_iff.mp last
    rw [Path.parent, hp, List.dropLast_concat]
  refine locate_eq_ok_iff.mpr ⟨free, ?_⟩
  have front := (locate_eq_ok_iff.mp parent).2
  rw [parts, follow_concat]
  have front : follow fs.root (fs.start path) path.parent.parts = .ok place := front
  rw [front]
  exact enter_eq_ok_iff.mpr ⟨here, Or.inr ⟨down, name, named, rfl, there⟩⟩

/-! ### Paths below a directory -/

theorem follow_names {root : Entry} {place names : List String} (named : ∀ name ∈ names, IsFileName name)
    (there : (root.nodeAt? (place ++ names)).isSome = true) :
    follow root place (names.map RawText.ofString) = .ok (place ++ names) ∨
      follow root place (names.map RawText.ofString) = .error .nameTooLong := by
  induction names generalizing place with
  | nil => exact Or.inl (by rw [List.append_nil]; rfl)
  | cons name rest ih =>
    obtain ⟨own, others⟩ := List.forall_mem_cons.mp named
    have steps : place ++ name :: rest = place ++ [name] ++ rest := by simp
    rw [steps] at there ⊢
    have child := Entry.isSome_nodeAt?_of_append there
    have here := Entry.nodeAt?_of_nodeAt?_concat child
    have down := ofString_ne_double_dot own.ne_double_dot
    rw [List.map_cons, follow_cons]
    rcases nameOf_ofString name with known | long
    · have entered : enter root place (RawText.ofString name) = .ok (place ++ [name]) :=
        enter_eq_ok_iff.mpr ⟨here, Or.inr ⟨down, name, known, rfl, child⟩⟩
      rw [entered]
      exact ih others there
    · rw [enter, here]
      dsimp only
      rw [if_neg down, long]
      exact Or.inr rfl

/-- A chain of names that leads to something from a directory is a path to it, unless a name or the path is too
    long. -/
theorem locate_below {fs : FileSystem} {directory : Path} {place names : List String}
    (located : fs.locate directory = .ok place) (named : ∀ name ∈ names, IsFileName name)
    (there : (fs.root.nodeAt? (place ++ names)).isSome = true) :
    fs.locate (directory.below names) = .ok (place ++ names) ∨
      fs.locate (directory.below names) = .error .nameTooLong := by
  obtain ⟨free, followed⟩ := locate_eq_ok_iff.mp located
  have spelled : ∀ part ∈ (directory.below names).parts, part.Spelled := by
    intro part hp
    rcases List.mem_append.mp hp with hp | hp
    · exact spelled_of_startObstacle? free part hp
    · obtain ⟨name, hn, rfl⟩ := List.mem_map.mp hp
      exact RawText.spelled_ofString (named name hn).null_notMem
  rw [locate]
  rcases startObstacle?_of_spelled spelled with start | start
  · rw [start]
    dsimp only [Path.below]
    rw [follow_append]
    have followed : follow fs.root (fs.start (directory.below names)) directory.parts = .ok place := followed
    dsimp only [Path.below] at followed
    rw [followed]
    exact follow_names named there
  · rw [start]
    exact Or.inr rfl

/-! ### Trees that have grown -/

/-- Where something stood something still stands, and a directory where there was one. -/
structure Grows (before after : FileSystem) : Prop where
  workingDirectory : after.workingDirectory = before.workingDirectory
  distinct : before.root.Distinct → after.root.Distinct
  directories : ∀ place, before.root.nodeAt? place = some .directory → after.root.nodeAt? place = some .directory
  present : ∀ place, (before.root.nodeAt? place).isSome = true → (after.root.nodeAt? place).isSome = true

namespace Grows

variable {before middle after : FileSystem}

theorem refl (fs : FileSystem) : Grows fs fs := ⟨rfl, id, fun _ => id, fun _ => id⟩

theorem trans (first : Grows before middle) (second : Grows middle after) : Grows before after where
  workingDirectory := second.workingDirectory.trans first.workingDirectory
  distinct h := second.distinct (first.distinct h)
  directories place h := second.directories place (first.directories place h)
  present place h := second.present place (first.present place h)

theorem enter (h : Grows before after) {place next : List String} {part : RawText}
    (entered : enter before.root place part = .ok next) : FileSystem.enter after.root place part = .ok next := by
  obtain ⟨here, way⟩ := enter_eq_ok_iff.mp entered
  refine enter_eq_ok_iff.mpr ⟨h.directories place here, way.imp id ?_⟩
  rintro ⟨down, name, named, rfl, there⟩
  exact ⟨down, name, named, rfl, h.present _ there⟩

theorem follow (h : Grows before after) {place next : List String} {parts : List RawText}
    (followed : follow before.root place parts = .ok next) : FileSystem.follow after.root place parts = .ok next := by
  induction parts generalizing place with
  | nil => exact followed
  | cons part rest ih =>
    rw [follow_cons] at followed ⊢
    cases entered : FileSystem.enter before.root place part with
    | error obstacle => rw [entered] at followed; cases followed
    | ok here =>
      rw [entered] at followed
      rw [h.enter entered]
      exact ih followed

theorem start (h : Grows before after) (path : Path) : after.start path = before.start path := by
  rw [FileSystem.start, FileSystem.start, h.workingDirectory]

theorem locate (h : Grows before after) {path : Path} {place : List String} (located : before.locate path = .ok place) :
    after.locate path = .ok place := by
  obtain ⟨free, followed⟩ := locate_eq_ok_iff.mp located
  exact locate_eq_ok_iff.mpr ⟨free, h.start path ▸ h.follow followed⟩

theorem target (h : Grows before after) {path : Path} {place : List String} {name : String}
    (found : before.target path = .ok (place, name)) : after.target path = .ok (place, name) := by
  obtain ⟨part, last, free, parent, here, down, named⟩ := target_eq_ok_iff.mp found
  exact target_eq_ok_iff.mpr ⟨part, last, free, h.locate parent, h.directories place here, down, named⟩

theorem isDirectory (h : Grows before after) {path : Path} (there : before.isDirectory path = .ok true) :
    after.isDirectory path = .ok true := by
  obtain ⟨place, located, here⟩ := isDirectory_eq_true_iff.mp there
  exact isDirectory_eq_true_iff.mpr ⟨place, h.locate located, h.directories place here⟩

end Grows

end FileSystem

end SolidityLint

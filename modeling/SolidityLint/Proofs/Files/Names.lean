import SolidityLint.Files.FileSystem
import SolidityLint.Proofs.Bytes.Utf8
import SolidityLint.Proofs.Text.Joined

/-! Texts of names and of paths as bytes. A path whose parts can be spelled is refused from the start for its length
    only, and then every longer path is refused with it. -/

namespace SolidityLint

/-! ### Bytes of texts -/

/-- Whether a text has bytes, and no null character is among them. -/
def RawText.Spelled (s : RawText) : Prop :=
  ∀ point ∈ s.points, ∃ bytes, point.nameBytes? = some bytes ∧ (0 : UInt8) ∉ bytes

namespace RawText

theorem nameBytes?_cons (point : CodePoint) (rest : List CodePoint) :
    (mk (point :: rest)).nameBytes? =
      point.nameBytes?.bind fun bytes => (mk rest).nameBytes?.map fun others => bytes ++ others := by
  simp only [nameBytes?, List.mapM_cons]
  cases point.nameBytes? with
  | none => rfl
  | some bytes => cases List.mapM CodePoint.nameBytes? rest <;> rfl

theorem nameBytes?_append (s t : RawText) :
    (s ++ t).nameBytes? = s.nameBytes?.bind fun bytes => t.nameBytes?.map fun others => bytes ++ others := by
  obtain ⟨points⟩ := s
  induction points with
  | nil =>
    change t.nameBytes? = (some []).bind _
    cases t.nameBytes? <;> rfl
  | cons point rest ih =>
    have parts : mk (point :: rest) ++ t = mk (point :: (mk rest ++ t).points) := rfl
    rw [parts, nameBytes?_cons, nameBytes?_cons]
    change (point.nameBytes?.bind fun bytes => (mk rest ++ t).nameBytes?.map _) = _
    rw [ih]
    cases point.nameBytes? with
    | none => rfl
    | some bytes =>
      cases (mk rest).nameBytes? with
      | none => rfl
      | some others => cases t.nameBytes? <;> simp

/-- The bytes of a text that stands in front of another are in front of those of the other. -/
theorem nameBytes?_of_prefix {s t : RawText} (h : s.points <+: t.points) {bytes : List UInt8}
    (all : t.nameBytes? = some bytes) : ∃ front, s.nameBytes? = some front ∧ front <+: bytes := by
  obtain ⟨rest, parts⟩ := h
  obtain rfl : s ++ mk rest = t := points_injective parts
  rw [nameBytes?_append] at all
  cases own : s.nameBytes? with
  | none => rw [own] at all; cases all
  | some front =>
    rw [own, Option.bind_some, Option.map_eq_some_iff] at all
    obtain ⟨others, -, rfl⟩ := all
    exact ⟨front, rfl, List.prefix_append front others⟩

theorem spelled_iff {s : RawText} : s.Spelled ↔ ∃ bytes, s.nameBytes? = some bytes ∧ (0 : UInt8) ∉ bytes := by
  obtain ⟨points⟩ := s
  induction points with
  | nil => exact ⟨fun _ => ⟨[], rfl, List.not_mem_nil⟩, fun _ => nofun⟩
  | cons point rest ih =>
    rw [nameBytes?_cons, Spelled, List.forall_mem_cons]
    constructor
    · rintro ⟨⟨bytes, own, clean⟩, others⟩
      obtain ⟨others, spelled, clean'⟩ := ih.mp others
      refine ⟨bytes ++ others, by rw [own, Option.bind_some, spelled]; rfl, ?_⟩
      exact fun hm => (List.mem_append.mp hm).elim clean clean'
    · rintro ⟨all, spelled, clean⟩
      obtain ⟨bytes, own, both⟩ := Option.bind_eq_some_iff.mp spelled
      obtain ⟨others, behind, rfl⟩ := Option.map_eq_some_iff.mp both
      exact ⟨⟨bytes, own, fun hm => clean (List.mem_append_left _ hm)⟩,
        ih.mpr ⟨others, behind, fun hm => clean (List.mem_append_right _ hm)⟩⟩

theorem nameBytes?_ofString (s : String) : (ofString s).nameBytes? = some (Utf8.encode s.toList) := by
  rw [ofString, ofChars]
  induction s.toList with
  | nil => rfl
  | cons c cs ih =>
    rw [List.map_cons, nameBytes?_cons, ih]
    rfl

/-- A text without halves of pairs is one of characters. -/
theorem ofString_toString {s : RawText} (h : ∀ point ∈ s.points, ∃ c, point = .char c) : ofString s.toString = s := by
  refine points_injective ?_
  rw [ofString, toString, String.toList_ofList, ofChars, chars, List.map_map]
  refine (List.map_congr_left fun point hp => ?_).trans (List.map_id s.points)
  obtain ⟨c, rfl⟩ := h point hp
  rfl

/-- The bytes of a name are those of its text. -/
@[simp] theorem name?_ofString (s : String) : (ofString s).name? = some s := by
  rw [name?, nameBytes?_ofString, Option.bind_some, Utf8.decodeStrict_encode]
  exact congrArg some String.ofList_toList

theorem spelled_ofString {s : String} (h : '\x00' ∉ s.toList) : (ofString s).Spelled := by
  intro point hp
  obtain ⟨c, hc, rfl⟩ := List.mem_map.mp hp
  exact ⟨_, rfl, Utf8.zero_notMem_utf8EncodeChar fun null => h (null ▸ hc)⟩

end RawText

/-! ### Names -/

/-- A name that an entry of a directory can have. -/
structure IsFileName (name : String) : Prop where
  ne_empty : name ≠ ""
  ne_dot : name ≠ "."
  ne_double_dot : name ≠ ".."
  slash_notMem : '/' ∉ name.toList
  null_notMem : '\x00' ∉ name.toList

instance (name : String) : Decidable (IsFileName name) :=
  decidable_of_iff (name ≠ "" ∧ name ≠ "." ∧ name ≠ ".." ∧ '/' ∉ name.toList ∧ '\x00' ∉ name.toList)
    ⟨fun ⟨h₁, h₂, h₃, h₄, h₅⟩ => ⟨h₁, h₂, h₃, h₄, h₅⟩, fun ⟨h₁, h₂, h₃, h₄, h₅⟩ => ⟨h₁, h₂, h₃, h₄, h₅⟩⟩

namespace Entry

/-- Every name in a tree is one that an entry can have. -/
def WellNamed (tree : Entry) : Prop :=
  ∀ names, (tree.get? names).isSome = true → ∀ name ∈ names, IsFileName name

theorem wellNamed_file (content : List UInt8) : (file content).WellNamed := by
  intro names there
  cases names with
  | nil => nofun
  | cons name rest => cases there

theorem wellNamed_directory {children : List (String × Entry)}
    (h : ∀ child ∈ children, IsFileName child.1 ∧ child.2.WellNamed) : (directory children).WellNamed := by
  intro names there
  cases names with
  | nil => nofun
  | cons name rest =>
    rw [get?, child?] at there
    cases found : children.find? (·.1 = name) with
    | none => rw [found] at there; cases there
    | some child =>
      rw [found] at there
      obtain ⟨own, below⟩ := h child (List.mem_of_find?_eq_some found)
      have named : child.1 = name := by simpa using List.find?_some found
      exact List.forall_mem_cons.mpr ⟨named ▸ own, below rest there⟩

end Entry

namespace FileSystem

theorem nameOf_ofString (name : String) :
    nameOf (RawText.ofString name) = .ok name ∨ nameOf (RawText.ofString name) = .error .nameTooLong := by
  unfold nameOf
  split
  · exact Or.inr rfl
  · rw [RawText.name?_ofString]
    exact Or.inl rfl

theorem ofString_ne_double_dot {name : String} (h : name ≠ "..") : RawText.ofString name ≠ RawText.ofString ".." :=
  fun same => h (RawText.ofString_injective same)

end FileSystem

/-! ### Whole paths -/

namespace Path

/-- The parts of a path that is given as a string are strings. -/
theorem exists_names (text : String) : ∃ names : List String, (ofText text).parts = names.map RawText.ofString := by
  refine ⟨(ofText text).parts.map RawText.toString, ?_⟩
  rw [List.map_map]
  refine ((List.map_congr_left fun part hp => ?_).trans (List.map_id _)).symm
  obtain ⟨piece, cut, rfl⟩ := List.mem_map.mp (List.mem_filter.mp hp).1
  refine RawText.ofString_toString fun point hm => ?_
  obtain ⟨c, -, rfl⟩ := List.mem_map.mp (Text.mem_of_mem_splitOn cut hm)
  exact ⟨c, rfl⟩

/-- What is written of a path; if that is nothing, a dot stands for it. -/
def written (path : Path) : List CodePoint :=
  List.replicate path.slashes (.char '/') ++ Text.joinWith (.char '/') (path.parts.map RawText.points)

theorem points_text (path : Path) :
    path.text.points = if path.written = [] then [.char '.'] else path.written := by
  have joined : (RawText.joined "/" path.parts).points = Text.joinWith (.char '/') (path.parts.map RawText.points) :=
    RawText.points_joined _ _
  have points : (RawText.ofChars (List.replicate path.slashes '/') ++ RawText.joined "/" path.parts).points =
      path.written := by
    rw [RawText.points_append, joined, RawText.ofChars, List.map_replicate, written]
  unfold Path.text
  dsimp only
  simp only [RawText.isEmpty, points, List.isEmpty_iff]
  split
  · rfl
  · exact points

theorem mem_written_of_mem {path : Path} {part : RawText} (hp : part ∈ path.parts) {point : CodePoint}
    (hm : point ∈ part.points) : point ∈ path.written :=
  List.mem_append_right _ (Text.mem_joinWith (List.mem_map_of_mem hp) hm)

theorem eq_or_mem_of_mem_written {path : Path} {point : CodePoint} (h : point ∈ path.written) :
    point = .char '/' ∨ ∃ part ∈ path.parts, point ∈ part.points := by
  rcases List.mem_append.mp h with hm | hm
  · exact Or.inl (List.eq_of_mem_replicate hm)
  · refine (Text.eq_or_mem_of_mem_joinWith hm).imp_right ?_
    rintro ⟨_, listed, hm⟩
    obtain ⟨part, hp, rfl⟩ := List.mem_map.mp listed
    exact ⟨part, hp, hm⟩

theorem written_take_prefix (path : Path) (count : Nat) :
    written { path with parts := path.parts.take count } <+: path.written := by
  rw [written, written, List.map_take]
  exact (List.prefix_append_right_inj _).mpr (Text.joinWith_take_prefix _ _ count)

/-- Whether a part of a path is one as it can be cut from a text. -/
def IsPart (part : RawText) : Prop :=
  part.points ≠ [] ∧ CodePoint.char '/' ∉ part.points

theorem isPart_of_mem_ofText {text part : RawText} (h : part ∈ (ofText text).parts) : IsPart part := by
  obtain ⟨listed, some⟩ := List.mem_filter.mp h
  obtain ⟨piece, cut, rfl⟩ := List.mem_map.mp listed
  refine ⟨fun none => ?_, Text.separator_notMem_of_mem_splitOn cut⟩
  have none : piece = [] := none
  rw [none] at some
  cases some

theorem isPart_ofString {name : String} (h : IsFileName name) : IsPart (RawText.ofString name) := by
  refine ⟨fun none => h.ne_empty ?_, fun slash => h.slash_notMem ?_⟩
  · exact String.toList_eq_nil_iff.mp (List.map_eq_nil_iff.mp none)
  · obtain ⟨c, hc, same⟩ := List.mem_map.mp slash
    exact CodePoint.char.inj same ▸ hc

/-- The text of a relative path with parts is that of its parts. -/
theorem points_text_of_relative {path : Path} (relative : path.slashes = 0) (some : path.parts ≠ [])
    (plain : ∀ part ∈ path.parts, IsPart part) :
    path.text.points = Text.joinWith (.char '/') (path.parts.map RawText.points) := by
  obtain ⟨part, hp⟩ := List.exists_mem_of_ne_nil _ some
  obtain ⟨point, hm⟩ := List.exists_mem_of_ne_nil _ (plain part hp).1
  rw [points_text, if_neg (List.ne_nil_of_mem (mem_written_of_mem hp hm)), written, relative]
  rfl

/-- Relative paths with parts are told apart by their texts. -/
theorem parts_eq_of_text_eq {path path' : Path} (relative : path.slashes = 0) (relative' : path'.slashes = 0)
    (some : path.parts ≠ []) (some' : path'.parts ≠ []) (plain : ∀ part ∈ path.parts, IsPart part)
    (plain' : ∀ part ∈ path'.parts, IsPart part) (same : path.text = path'.text) : path.parts = path'.parts := by
  have same := congrArg RawText.points same
  rw [points_text_of_relative relative some plain, points_text_of_relative relative' some' plain'] at same
  refine (List.map_inj_right fun _ _ => RawText.points_injective).mp (Text.joinWith_injective ?_ ?_ ?_ ?_ same)
  · exact fun none => some (List.map_eq_nil_iff.mp none)
  · exact fun none => some' (List.map_eq_nil_iff.mp none)
  · exact List.forall_mem_map.mpr fun part hp => (plain part hp).2
  · exact List.forall_mem_map.mpr fun part hp => (plain' part hp).2

/-- The text of a path whose parts are strings is one. -/
theorem ofString_toString_text {path : Path} {names : List String} (h : path.parts = names.map RawText.ofString) :
    RawText.ofString path.text.toString = path.text := by
  refine RawText.ofString_toString fun point hm => ?_
  rw [points_text] at hm
  split at hm
  · exact ⟨'.', List.mem_singleton.mp hm⟩
  · rcases eq_or_mem_of_mem_written hm with rfl | ⟨part, hp, hm⟩
    · exact ⟨'/', rfl⟩
    · obtain ⟨name, -, rfl⟩ := List.mem_map.mp (h ▸ hp)
      obtain ⟨c, -, rfl⟩ := List.mem_map.mp hm
      exact ⟨c, rfl⟩

theorem spelled_text_iff {path : Path} : path.text.Spelled ↔ ∀ part ∈ path.parts, part.Spelled := by
  rw [RawText.Spelled, points_text]
  constructor
  · intro all part hp point hm
    have among := mem_written_of_mem hp hm
    rw [if_neg (List.ne_nil_of_mem among)] at all
    exact all point among
  · intro all point hm
    split at hm
    · rw [List.mem_singleton] at hm
      subst hm
      exact ⟨_, rfl, by decide⟩
    · rcases eq_or_mem_of_mem_written hm with rfl | ⟨part, hp, hm⟩
      · exact ⟨_, rfl, by decide⟩
      · exact all part hp point hm

end Path

namespace FileSystem

/-- Only its length can keep a path from being followed whose parts can be spelled. -/
theorem startObstacle?_of_spelled {path : Path} (h : ∀ part ∈ path.parts, part.Spelled) :
    startObstacle? path = none ∨ startObstacle? path = some .nameTooLong := by
  obtain ⟨bytes, spelled, clean⟩ := RawText.spelled_iff.mp (Path.spelled_text_iff.mpr h)
  rw [startObstacle?, spelled]
  dsimp only
  rw [if_neg (by simpa using clean)]
  split
  · exact Or.inr rfl
  · exact Or.inl rfl

theorem startObstacle?_eq_none_iff {path : Path} : startObstacle? path = none ↔
    ∃ bytes, path.text.nameBytes? = some bytes ∧ (0 : UInt8) ∉ bytes ∧ bytes.length ≤ pathLimit := by
  unfold startObstacle?
  cases path.text.nameBytes? with
  | none => exact ⟨nofun, nofun⟩
  | some bytes =>
    simp only [List.contains_iff_mem, Option.some_inj, exists_eq_left']
    split
    · simp_all
    · split <;> simp_all

/-- A path whose parts have no halves of pairs in them is not taken for missing. -/
theorem startObstacle?_ne_missing {path : Path} {names : List String} (h : path.parts = names.map RawText.ofString) :
    startObstacle? path ≠ some .missing := by
  rw [startObstacle?, ← Path.ofString_toString_text h, RawText.nameBytes?_ofString]
  dsimp only
  split
  · nofun
  · split <;> nofun

theorem spelled_of_startObstacle? {path : Path} (h : startObstacle? path = none) :
    ∀ part ∈ path.parts, part.Spelled := by
  obtain ⟨bytes, spelled, clean, -⟩ := startObstacle?_eq_none_iff.mp h
  exact Path.spelled_text_iff.mp (RawText.spelled_iff.mpr ⟨bytes, spelled, clean⟩)

/-- A path that can be followed can be followed up to each of its parts. -/
theorem startObstacle?_take {path : Path} (h : startObstacle? path = none) (count : Nat) :
    startObstacle? { path with parts := path.parts.take count } = none := by
  obtain ⟨bytes, spelled, clean, short⟩ := startObstacle?_eq_none_iff.mp h
  have points := Path.points_text { path with parts := path.parts.take count }
  have front := path.written_take_prefix count
  refine startObstacle?_eq_none_iff.mpr ?_
  split at points
  · have dot : { path with parts := path.parts.take count : Path }.text = RawText.ofString "." :=
      RawText.points_injective points
    rw [dot, RawText.nameBytes?_ofString]
    exact ⟨_, rfl, by decide, by decide⟩
  · rename_i some
    have all : path.text.points = path.written := by
      rw [Path.points_text, if_neg]
      intro none
      rw [none] at front
      exact some (List.prefix_nil.mp front)
    rw [← points, ← all] at front
    obtain ⟨bytes', spelled', sub⟩ := RawText.nameBytes?_of_prefix front spelled
    exact ⟨bytes', spelled', fun hm => clean (sub.subset hm), Nat.le_trans sub.length_le short⟩

end FileSystem

end SolidityLint

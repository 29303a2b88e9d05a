import SolidityLint.Declaration.Function
import SolidityLint.Proofs.Declaration.Pieces
import SolidityLint.Proofs.Text.Leftmost

/-! The visibility of a function. It is the first visibility that the tail of the declaration has as a whole word. All
    visibilities are made of word characters, so whether one of them is a whole word is told by the character in front
    of it and the one behind it. -/

namespace SolidityLint.Declaration

open Text

/-! ### Words -/

/-- An edge of a word: a word character on one side of an offset, and none on the other. -/
def WordEdge (cs : List Char) (i : Nat) : Prop :=
  (cs.take i).getLast?.any isWordCharacter ≠ (cs.drop i).head?.any isWordCharacter

/-- A visibility stands at an offset of a text as a whole word. -/
structure VisibilityAt (cs : List Char) (p : Nat) (word : String) : Prop where
  mem : word ∈ visibilityWords
  text : ∃ rest, cs.drop p = word.toList ++ rest
  opens : WordEdge cs p
  closes : WordEdge cs (p + word.length)

section

variable {word : String} (h : word ∈ visibilityWords)

include h

theorem head?_visibility (rest : List Char) : (word.toList ++ rest).head?.any isWordCharacter = true := by
  simp only [visibilityWords, List.mem_cons, List.not_mem_nil, or_false] at h
  rcases h with rfl | rfl | rfl | rfl <;> rfl

theorem getLast?_visibility (before : List Char) : (before ++ word.toList).getLast?.any isWordCharacter = true := by
  rw [List.getLast?_append]
  simp only [visibilityWords, List.mem_cons, List.not_mem_nil, or_false] at h
  rcases h with rfl | rfl | rfl | rfl <;> rfl

end

/-- No visibility is the beginning of another. -/
theorem visibility_eq_of_append {one other : String} (h : one ∈ visibilityWords) (h' : other ∈ visibilityWords)
    {rest rest' : List Char} (same : one.toList ++ rest = other.toList ++ rest') : one = other := by
  have apart : ∀ one ∈ visibilityWords, ∀ other ∈ visibilityWords, one.toList <+: other.toList → one = other := by
    decide
  rcases List.prefix_or_prefix_of_prefix (List.prefix_append one.toList rest) ⟨rest', same.symm⟩ with front | front
  · exact apart one h other h' front
  · exact (apart other h' one h front).symm

theorem VisibilityAt.unique {cs : List Char} {p : Nat} {one other : String} (h : VisibilityAt cs p one)
    (h' : VisibilityAt cs p other) : one = other := by
  obtain ⟨rest, text⟩ := h.text
  obtain ⟨rest', text'⟩ := h'.text
  exact visibility_eq_of_append h.mem h'.mem (text.symm.trans text')

/-! ### Finding the first one -/

theorem startsInWord_eq (cs : List Char) : startsInWord cs = cs.head?.any isWordCharacter := by
  cases cs <;> rfl

theorem visibilityAt?_eq_find? (cs : List Char) :
    visibilityAt? cs = visibilityWords.find? fun word => (afterWord? word.toList cs).any (!startsInWord ·) := by
  unfold visibilityAt?
  congr
  funext word
  cases afterWord? word.toList cs <;> rfl

theorem visibilityAt?_eq_some_iff {cs : List Char} {word : String} :
    visibilityAt? cs = some word ↔
      word ∈ visibilityWords ∧ ∃ rest, cs = word.toList ++ rest ∧ rest.head?.any isWordCharacter = false := by
  have test {word : String} : (afterWord? word.toList cs).any (!startsInWord ·) = true ↔
      ∃ rest, cs = word.toList ++ rest ∧ rest.head?.any isWordCharacter = false := by
    simp [Option.any_eq_true, afterWord?_eq_some_iff, startsInWord_eq]
  rw [visibilityAt?_eq_find?]
  constructor
  · intro h
    have told := List.find?_some h
    exact ⟨List.mem_of_find?_eq_some h, test.mp told⟩
  · rintro ⟨hm, there⟩
    cases found : visibilityWords.find? fun word => (afterWord? word.toList cs).any (!startsInWord ·) with
    | none => exact absurd (test.mpr there) (List.find?_eq_none.mp found word hm)
    | some other =>
      obtain ⟨rest, text, -⟩ := there
      have told := List.find?_some found
      obtain ⟨rest', text', -⟩ := test.mp told
      rw [visibility_eq_of_append (List.mem_of_find?_eq_some found) hm (text'.symm.trans text)]

/-- A visibility is a whole word where no word character stands in front of it and none behind it. -/
theorem visibilityAt_append_iff {before cs : List Char} {word : String} :
    VisibilityAt (before ++ cs) before.length word ↔
      before.getLast?.any isWordCharacter = false ∧ visibilityAt? cs = some word := by
  rw [visibilityAt?_eq_some_iff]
  constructor
  · rintro ⟨hm, ⟨rest, text⟩, opens, closes⟩
    rw [List.drop_left] at text
    subst text
    rw [WordEdge, List.take_left, List.drop_left, head?_visibility hm] at opens
    rw [WordEdge, ← List.append_assoc, ← String.length_toList, ← List.length_append, List.take_left, List.drop_left,
      getLast?_visibility hm] at closes
    exact ⟨by simpa using opens, hm, rest, rfl, by simpa using closes.symm⟩
  · rintro ⟨front, hm, rest, rfl, behind⟩
    refine ⟨hm, ⟨rest, List.drop_left⟩, ?_, ?_⟩
    · rw [WordEdge, List.take_left, List.drop_left, head?_visibility hm, front]
      decide
    · rw [WordEdge, ← List.append_assoc, ← String.length_toList, ← List.length_append, List.take_left, List.drop_left,
        getLast?_visibility hm, behind]
      decide

/-- The search behind a part of a text, told whether that ends with a word character. -/
theorem first_findVisibility? (before cs : List Char) :
    First (fun p => VisibilityAt (before ++ cs) (before.length + p))
      (findVisibility? (before.getLast?.any isWordCharacter) cs) := by
  induction cs generalizing before with
  | nil =>
    refine .nowhere fun q word there => ?_
    obtain ⟨rest, text⟩ := there.text
    have nonempty := head?_visibility there.mem rest
    rw [← text, List.drop_eq_nil_of_le (by simp)] at nonempty
    cases nonempty
  | cons c rest ih =>
    have here (word : String) : VisibilityAt (before ++ c :: rest) before.length word ↔ _ := visibilityAt_append_iff
    rw [findVisibility?]
    split
    · rename_i word found
      refine .zero ((here word).mpr ?_)
      split at found
      · cases found
      · rename_i front
        exact ⟨by simpa using front, found⟩
    · rename_i nothing
      refine .succ ?_ fun word there => ?_
      · have behind := ih (before ++ [c])
        simpa [Nat.add_assoc, Nat.add_comm 1] using behind
      · obtain ⟨front, found⟩ := (here word).mp there
        rw [front, found] at nothing
        cases nothing

/-- The visibility of a function is the first one that its tail has as a whole word, and `internal` if it has none. -/
theorem visibility_eq_iff {tail : List Char} {v : String} :
    visibility tail = v ↔ ∃ found, First (VisibilityAt tail) found ∧ v = found.getD "internal" := by
  have first : First (VisibilityAt tail) (findVisibility? false tail) := by
    simpa using first_findVisibility? [] tail
  constructor
  · rintro rfl
    exact ⟨_, first, rfl⟩
  · rintro ⟨found, h, rfl⟩
    rw [visibility, first.unique h fun p one other => VisibilityAt.unique]

end SolidityLint.Declaration

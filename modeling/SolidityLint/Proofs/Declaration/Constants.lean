import Mathlib.Data.Option.Basic
import SolidityLint.Declaration.Constant
import SolidityLint.Proofs.Declaration.Pieces
import SolidityLint.Proofs.Text.Leftmost

/-! Where constant declarations sit. A name is followed by white space, so it goes as far as an identifier can, and the
    white space goes up to the keyword or to a visibility, neither of which starts with white space. So a declaration
    can be cut in one way only, and it is read wherever it stands. -/

namespace SolidityLint.Declaration

open Text

namespace ConstantSpan

/-- The pieces are what they are called. Without a visibility there are at least two characters of white space. -/
structure WellFormed (span : ConstantSpan) : Prop where
  name : IsIdentifier span.name
  before : Blanks span.before
  after : Blanks span.after
  parted : span.visibility = [] ∧ span.after = [] ∧ 2 ≤ span.before.length ∨
    span.visibility ∈ visibilities ∧ span.before ≠ [] ∧ span.after ≠ []

theorem WellFormed.before_ne_nil {span : ConstantSpan} (h : span.WellFormed) : span.before ≠ [] := by
  rcases h.parted with ⟨-, -, two⟩ | ⟨-, parted, -⟩
  · intro nothing
    simp [nothing] at two
  · exact parted

/-! ### Visibilities -/

section

variable {word : List Char} (h : word ∈ visibilities) (rest : List Char)

include h

theorem visibility?_append : visibility? (word ++ rest) = some (word, rest) := by
  simp only [visibilities, List.mem_cons, List.not_mem_nil, or_false] at h
  rcases h with rfl | rfl | rfl <;> rfl

theorem afterWord?_constant_append : afterWord? "constant".toList (word ++ rest) = none := by
  simp only [visibilities, List.mem_cons, List.not_mem_nil, or_false] at h
  rcases h with rfl | rfl | rfl <;> rfl

theorem stops_isBlank_append : Stops isBlank (word ++ rest) := by
  simp only [visibilities, List.mem_cons, List.not_mem_nil, or_false] at h
  rcases h with rfl | rfl | rfl <;> exact stops_cons (by decide) _

end

theorem of_visibility? {cs word rest : List Char} (h : visibility? cs = some (word, rest)) :
    word ∈ visibilities ∧ cs = word ++ rest := by
  obtain ⟨own, hm, hr⟩ := List.exists_of_findSome?_eq_some h
  obtain ⟨behind, front, same⟩ := Option.map_eq_some_iff.mp hr
  obtain ⟨rfl, rfl⟩ := Prod.mk.inj same
  exact ⟨hm, afterWord?_eq_some_iff.mp front⟩

/-! ### Reading -/

theorem stops_isBlank_keyword (rest : List Char) : Stops isBlank ("constant".toList ++ rest) :=
  stops_cons (by decide) _

theorem WellFormed.span_before {span : ConstantSpan} (h : span.WellFormed) (rest : List Char) :
    (span.before ++ (span.visibility ++ (span.after ++ ("constant".toList ++ rest)))).span isBlank =
      (span.before, span.visibility ++ (span.after ++ ("constant".toList ++ rest))) := by
  refine span_eq_iff.mpr ⟨rfl, h.before, ?_⟩
  rcases h.parted with ⟨visible, after, -⟩ | ⟨visible, -, -⟩
  · rw [visible, after]
    exact stops_isBlank_keyword rest
  · exact stops_isBlank_append visible _

theorem WellFormed.identifier?_name {span : ConstantSpan} (h : span.WellFormed) (rest : List Char) :
    identifier? (span.name ++ (span.before ++ rest)) = some (span.name, span.before ++ rest) :=
  identifier?_eq_some_iff.mpr ⟨rfl, h.name, h.before.stops_isIdentifierChar h.before_ne_nil rest⟩

theorem chars_append (span : ConstantSpan) (rest : List Char) :
    span.chars ++ rest = span.name ++ (span.before ++ (span.visibility ++ (span.after ++
      ("constant".toList ++ rest)))) := by
  simp only [chars, List.append_assoc]

theorem read?_sound {cs : List Char} {span : ConstantSpan} (h : read? cs = some span) :
    span.WellFormed ∧ ∃ rest, cs = span.chars ++ rest := by
  simp only [read?, Option.bind_eq_bind, Option.bind_eq_some_iff, Option.pure_def, Prod.exists,
    identifier?_eq_some_iff, Option.guard_eq_some', exists_const] at h
  obtain ⟨name, afterName, ⟨rfl, named, -⟩, parted, h⟩ := h
  obtain ⟨before, rest, atBefore⟩ : ∃ run rest, afterName.span isBlank = (run, rest) := ⟨_, _, rfl⟩
  obtain ⟨rfl, blank, -⟩ := span_eq_iff.mp atBefore
  simp only [atBefore] at parted h
  split at h
  · rename_i keyword
    obtain ⟨rest, rfl⟩ := isSome_afterWord?_iff.mp keyword
    simp only [Option.bind_eq_some_iff, Option.guard_eq_some', exists_const] at h
    obtain ⟨two, made⟩ := h
    obtain rfl := Option.some.inj made
    exact ⟨⟨named, blank, nofun, Or.inl ⟨rfl, rfl, two⟩⟩, rest, by simp [chars]⟩
  · simp only [Option.bind_eq_some_iff, Prod.exists, Option.guard_eq_some', exists_const] at h
    obtain ⟨word, afterWord, found, parted', keyword, made⟩ := h
    obtain ⟨visible, rfl⟩ := of_visibility? found
    obtain ⟨after, rest, atAfter⟩ : ∃ run rest, afterWord.span isBlank = (run, rest) := ⟨_, _, rfl⟩
    obtain ⟨rfl, blank', -⟩ := span_eq_iff.mp atAfter
    simp only [atAfter] at parted' keyword made
    obtain ⟨rest, rfl⟩ := isSome_afterWord?_iff.mp keyword
    obtain rfl := Option.some.inj made
    refine ⟨⟨named, blank, blank', Or.inr ⟨visible, ?_, ?_⟩⟩, rest, by simp [chars]⟩
    · simpa using parted
    · simpa using parted'

theorem read?_complete {span : ConstantSpan} (h : span.WellFormed) (rest : List Char) :
    read? (span.chars ++ rest) = some span := by
  have word : (afterWord? "constant".toList ("constant".toList ++ rest)).isSome = true :=
    isSome_afterWord?_iff.mpr ⟨rest, rfl⟩
  have parted : span.before.isEmpty = false := by simpa using h.before_ne_nil
  rw [chars_append, read?, h.identifier?_name]
  simp only [h.span_before, parted, Option.bind_eq_bind, Option.bind_some, Bool.not_false, guard_true, Option.pure_def]
  rcases h.parted with ⟨visible, after, two⟩ | ⟨visible, -, parted'⟩
  · have whole : (⟨span.name, span.before, [], []⟩ : ConstantSpan) =
        ⟨span.name, span.before, span.visibility, span.after⟩ := by
      rw [visible, after]
    simp only [visible, after, List.nil_append, word, two, if_true, guard_true]
    exact congrArg some whole
  · have atAfter := span_eq_iff.mpr ⟨rfl, h.after, stops_isBlank_keyword rest⟩
    have parted' : span.after.isEmpty = false := by simpa using parted'
    simp only [afterWord?_constant_append visible, visibility?_append visible, atAfter, word, parted',
      Option.isSome_none, Bool.false_eq_true, if_false, Option.bind_some, Bool.not_false, guard_true]
    rfl

theorem read?_eq_some_iff {cs : List Char} {span : ConstantSpan} :
    read? cs = some span ↔ span.WellFormed ∧ ∃ rest, cs = span.chars ++ rest := by
  constructor
  · exact read?_sound
  · rintro ⟨formed, rest, rfl⟩
    exact read?_complete formed rest

/-! ### Where a declaration sits -/

/-- The number of characters that a declaration takes up. -/
def width (span : ConstantSpan) : Nat :=
  span.chars.length

/-- A declaration with these pieces begins at an offset of a text. -/
def SitsAt (cs : List Char) (p : Nat) (span : ConstantSpan) : Prop :=
  span.WellFormed ∧ ∃ rest, cs.drop p = span.chars ++ rest

theorem narrow_read? {cs : List Char} {found : ConstantSpan} (h : read? cs = some found) :
    0 < width found ∧ width found ≤ cs.length := by
  obtain ⟨formed, rest, rfl⟩ := read?_sound h
  have named : 0 < found.name.length := List.length_pos_iff.mpr formed.name.ne_nil
  simp only [width, chars, List.length_append]
  omega

/-- Where one character of white space is all between a name and the keyword, no declaration begins inside the name. -/
theorem not_sitsAt_of_single_blank {cs name rest : List Char} {p q : Nat} {c : Char} (named : IsIdentifier name)
    (blank : isBlank c = true) (text : cs.drop p = name ++ c :: ("constant".toList ++ rest)) (late : p ≤ q)
    (early : q < p + name.length) (span : ConstantSpan) : ¬SitsAt cs q span := by
  rintro ⟨formed, behind, there⟩
  obtain ⟨i, rfl⟩ := Nat.exists_eq_add_of_le late
  have blanks : Blanks [c] := List.forall_mem_singleton.mpr blank
  have cut : cs.drop (p + i) = name.drop i ++ ([c] ++ ("constant".toList ++ rest)) := by
    rw [← List.drop_drop, text, List.drop_append_of_le_length (by omega)]
    rfl
  -- Both readings of the text agree on how far the name goes, and then on how far the white space goes.
  have names := there.trans (span.chars_append behind)
  have inside : ∀ d ∈ name.drop i, isIdentifierChar d = true :=
    fun d hd => named.isIdentifierChar d (List.mem_of_mem_drop hd)
  have nameCut := span_eq_iff.mpr ⟨cut, inside, blanks.stops_isIdentifierChar (List.cons_ne_nil c []) _⟩
  rw [span_eq_iff.mpr ⟨names, formed.name.isIdentifierChar,
    formed.before.stops_isIdentifierChar formed.before_ne_nil _⟩] at nameCut
  have gaps := (Prod.mk.inj nameCut).2
  have gapCut := span_eq_iff.mpr ⟨gaps, blanks, stops_isBlank_keyword rest⟩
  rw [formed.span_before] at gapCut
  obtain ⟨one, keyword⟩ := Prod.mk.inj gapCut
  rcases formed.parted with ⟨-, -, two⟩ | ⟨visible, -, -⟩
  · simp [one] at two
  · have nothing := afterWord?_constant_append visible (span.after ++ ("constant".toList ++ behind))
    rw [keyword, afterWord?_eq_some_iff.mpr rfl] at nothing
    cases nothing

end ConstantSpan

open ConstantSpan

/-- The constant declarations of a text are the one list of spans that a search from its front takes. -/
theorem leftmost_constants (cs : List Char) :
    ∃ spans, Leftmost (SitsAt cs) width 0 spans ∧ (∀ others, Leftmost (SitsAt cs) width 0 others → others = spans) ∧
      constants cs = spans.map fun span => (lineCount (cs.take span.1), span.2) :=
  leftmost_occurrences (fun h => narrow_read? h) fun _ _ => read?_eq_some_iff

end SolidityLint.Declaration

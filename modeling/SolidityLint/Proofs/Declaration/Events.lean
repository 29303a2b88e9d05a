import Mathlib.Data.Option.Basic
import SolidityLint.Declaration.Event
import SolidityLint.Proofs.Declaration.Pieces
import SolidityLint.Proofs.Text.Leftmost

/-! Where event declarations sit. Nothing is asked of what stands in front of the keyword, so a declaration may begin
    inside a word, and its name may be the keyword of what would be the next one. -/

namespace SolidityLint.Declaration

open Text

namespace EventSpan

/-- The pieces are what they are called. -/
structure WellFormed (span : EventSpan) : Prop where
  gap : Blanks span.gap
  parted : span.gap ≠ []
  name : IsIdentifier span.name

theorem chars_append (span : EventSpan) (rest : List Char) :
    span.chars ++ rest = "event".toList ++ (span.gap ++ (span.name ++ rest)) := by
  unfold chars
  -- The keyword is a name here, or the rewriting would look for pieces inside it.
  generalize "event".toList = keyword
  simp only [List.append_assoc]

theorem read?_sound {cs : List Char} {span : EventSpan} (h : read? cs = some span) :
    span.WellFormed ∧ ∃ rest, cs = span.chars ++ rest ∧ Stops isIdentifierChar rest := by
  simp only [read?, Option.bind_eq_bind, Option.bind_eq_some_iff, Option.pure_def, Prod.exists,
    identifier?_eq_some_iff, Option.guard_eq_some', exists_const, afterWord?_eq_some_iff] at h
  obtain ⟨afterKeyword, rfl, parted, name, rest, ⟨atName, named, stops⟩, made⟩ := h
  obtain ⟨gap, afterGap, atGap⟩ : ∃ run rest, afterKeyword.span isBlank = (run, rest) := ⟨_, _, rfl⟩
  simp only [atGap] at parted atName made
  obtain ⟨rfl, blank, -⟩ := span_eq_iff.mp atGap
  subst atName
  obtain rfl := Option.some.inj made
  exact ⟨⟨blank, by simpa using parted, named⟩, rest, (chars_append ⟨gap, name⟩ rest).symm, stops⟩

theorem read?_complete {span : EventSpan} (h : span.WellFormed) {rest : List Char}
    (stops : Stops isIdentifierChar rest) : read? (span.chars ++ rest) = some span := by
  have parted : span.gap.isEmpty = false := by simpa using h.parted
  have word (behind : List Char) : afterWord? "event".toList ("event".toList ++ behind) = some behind :=
    afterWord?_eq_some_iff.mpr rfl
  have atGap := span_eq_iff.mpr ⟨rfl, h.gap, h.name.stops_isBlank rest⟩
  have atName := identifier?_eq_some_iff.mpr ⟨rfl, h.name, stops⟩
  rw [chars_append, read?]
  simp only [word, atGap, parted, atName, Option.bind_eq_bind, Option.bind_some, Bool.not_false, guard_true,
    Option.pure_def]

theorem narrow_read? {cs : List Char} {found : EventSpan} (h : read? cs = some found) :
    0 < found.chars.length ∧ found.chars.length ≤ cs.length := by
  obtain ⟨formed, rest, rfl, -⟩ := read?_sound h
  have named : found.chars ≠ [] := List.append_ne_nil_of_right_ne_nil _ formed.name.ne_nil
  rw [List.length_append]
  exact ⟨List.length_pos_iff.mpr named, Nat.le_add_right ..⟩

/-! ### Where a declaration sits -/

/-- The number of characters that a declaration takes up. -/
def width (span : EventSpan) : Nat :=
  span.chars.length

/-- A declaration with these pieces begins at an offset of a text, and its name goes as far as it can. -/
def SitsAt (cs : List Char) (p : Nat) (span : EventSpan) : Prop :=
  span.WellFormed ∧ ∃ rest, cs.drop p = span.chars ++ rest ∧ Stops isIdentifierChar rest

theorem foundAt_iff (cs : List Char) (p : Nat) (span : EventSpan) :
    FoundAt (fun _ => read?) cs p span ↔ SitsAt cs p span := by
  constructor
  · exact read?_sound
  · rintro ⟨formed, rest, text, stops⟩
    rw [FoundAt, text]
    exact read?_complete formed stops

end EventSpan

open EventSpan

/-- The event declarations of a text are the one list of spans that a search from its front takes. -/
theorem leftmost_events (cs : List Char) :
    ∃ spans, Leftmost (SitsAt cs) width 0 spans ∧ (∀ others, Leftmost (SitsAt cs) width 0 others → others = spans) ∧
      events cs = spans.map fun span => (lineCount (cs.take span.1), span.2) :=
  leftmost_occurrences (fun h => narrow_read? h) (foundAt_iff cs)

end SolidityLint.Declaration

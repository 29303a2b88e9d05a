import Mathlib.Data.Option.Basic
import SolidityLint.Declaration.Contract
import SolidityLint.Proofs.Declaration.Pieces
import SolidityLint.Proofs.Text.Joined
import SolidityLint.Proofs.Text.Lines

/-! Where contract declarations sit. A declaration takes in the white space above its keyword, newlines and all, so it
    begins at the top of the lines of white space there: it could begin at none of them and not at the one above as
    well, and the declaration before it ends with a name. -/

namespace SolidityLint.Declaration

open Text

namespace ContractSpan

/-- The pieces are what they are called. -/
structure WellFormed (span : ContractSpan) : Prop where
  indent : Blanks span.indent
  gap : Blanks span.gap
  parted : span.gap ≠ []
  name : IsIdentifier span.name

theorem chars_append (span : ContractSpan) (rest : List Char) :
    span.chars ++ rest = span.indent ++ ("contract".toList ++ (span.gap ++ (span.name ++ rest))) := by
  simp only [chars, List.append_assoc]

theorem read?_sound {atLineStart : Bool} {cs : List Char} {span : ContractSpan} (h : read? atLineStart cs = some span) :
    atLineStart = true ∧ span.WellFormed ∧ ∃ rest, cs = span.chars ++ rest ∧ Stops isIdentifierChar rest := by
  simp only [read?, Option.bind_eq_bind, Option.bind_eq_some_iff, Option.pure_def, Prod.exists,
    identifier?_eq_some_iff, Option.guard_eq_some', exists_const, afterWord?_eq_some_iff] at h
  obtain ⟨start, afterKeyword, opened, parted, name, rest, ⟨atName, named, stops⟩, made⟩ := h
  obtain ⟨indent, afterIndent, atIndent⟩ : ∃ run rest, cs.span isBlank = (run, rest) := ⟨_, _, rfl⟩
  obtain ⟨gap, afterGap, atGap⟩ : ∃ run rest, afterKeyword.span isBlank = (run, rest) := ⟨_, _, rfl⟩
  simp only [atIndent, atGap] at opened parted atName made
  obtain ⟨rfl, blank, -⟩ := span_eq_iff.mp atIndent
  obtain ⟨rfl, blank', -⟩ := span_eq_iff.mp atGap
  subst opened atName
  obtain rfl := Option.some.inj made
  exact ⟨start, ⟨blank, blank', by simpa using parted, named⟩, rest, (chars_append ⟨indent, gap, name⟩ rest).symm,
    stops⟩

theorem read?_complete {span : ContractSpan} (h : span.WellFormed) {rest : List Char}
    (stops : Stops isIdentifierChar rest) : read? true (span.chars ++ rest) = some span := by
  have parted : span.gap.isEmpty = false := by simpa using h.parted
  have word (behind : List Char) : afterWord? "contract".toList ("contract".toList ++ behind) = some behind :=
    afterWord?_eq_some_iff.mpr rfl
  have keyword (behind : List Char) : Stops isBlank ("contract".toList ++ behind) := stops_cons (by decide) _
  have atIndent := span_eq_iff.mpr ⟨rfl, h.indent, keyword (span.gap ++ (span.name ++ rest))⟩
  have atGap := span_eq_iff.mpr ⟨rfl, h.gap, h.name.stops_isBlank rest⟩
  have atName := identifier?_eq_some_iff.mpr ⟨rfl, h.name, stops⟩
  rw [chars_append, read?]
  simp only [atIndent, word, atGap, parted, atName, Option.bind_eq_bind, Option.bind_some, Bool.not_false, guard_true,
    Option.pure_def]

theorem narrow_read? {atLineStart : Bool} {cs : List Char} {found : ContractSpan}
    (h : read? atLineStart cs = some found) : 0 < found.chars.length ∧ found.chars.length ≤ cs.length := by
  obtain ⟨-, formed, rest, rfl, -⟩ := read?_sound h
  have named : 0 < found.name.length := List.length_pos_iff.mpr formed.name.ne_nil
  simp only [chars, List.length_append]
  omega

/-! ### Where a declaration sits -/

/-- The number of characters that a declaration takes up. -/
def width (span : ContractSpan) : Nat :=
  span.chars.length

/-- A declaration with these pieces begins at an offset of a text, at the start of a line, and its name goes as far as
    it can. -/
def SitsAt (cs : List Char) (p : Nat) (span : ContractSpan) : Prop :=
  (p = 0 ∨ cs[p - 1]? = some '\n') ∧ span.WellFormed ∧
    ∃ rest, cs.drop p = span.chars ++ rest ∧ Stops isIdentifierChar rest

theorem WellFormed.le_length {span : ContractSpan} (h : span.WellFormed) {cs rest : List Char} {p : Nat}
    (text : cs.drop p = span.chars ++ rest) : p ≤ cs.length := by
  by_contra beyond
  rw [List.drop_eq_nil_of_le (by omega), chars, List.append_assoc] at text
  exact h.name.ne_nil (List.append_eq_nil_iff.mp (List.append_eq_nil_iff.mp text.symm).2).1

theorem foundAt_iff (cs : List Char) (p : Nat) (span : ContractSpan) :
    FoundAt read? cs p span ↔ SitsAt cs p span := by
  constructor
  · intro h
    obtain ⟨start, formed, rest, text, stops⟩ := read?_sound h
    exact ⟨(endsLine_take_iff (formed.le_length text)).mp start, formed, rest, text, stops⟩
  · rintro ⟨start, formed, rest, text, stops⟩
    rw [FoundAt, (endsLine_take_iff (formed.le_length text)).mpr start, text]
    exact read?_complete formed stops

/-- A declaration ends with a character of its name. -/
theorem SitsAt.exists_last {cs : List Char} {p : Nat} {span : ContractSpan} (h : SitsAt cs p span) :
    ∃ c, cs[p + width span - 1]? = some c ∧ isIdentifierChar c = true := by
  obtain ⟨-, formed, rest, text, -⟩ := h
  obtain ⟨first, last, same⟩ := (List.eq_nil_or_concat span.name).resolve_left formed.name.ne_nil
  rw [List.concat_eq_append] at same
  have front : cs.drop p = span.indent ++ "contract".toList ++ span.gap ++ first ++ last :: rest := by
    simp only [text, chars, same, List.append_assoc, List.singleton_append]
  have place : p + width span - 1 = p + (span.indent ++ "contract".toList ++ span.gap ++ first).length := by
    rw [width, chars, same, ← List.append_assoc, List.length_append]
    rfl
  refine ⟨last, ?_, formed.name.isIdentifierChar last (by simp [same])⟩
  rw [place, ← List.getElem?_drop, front]
  simp

/-! ### The lines of white space above a declaration -/

/-- A declaration that begins on a line has its keyword on another, at an offset of the text: the lines from the one up
    to the other hold white space only, and so does what stands in front of the keyword, but not the line above. -/
structure AtTop (cs : List Char) (keyword line keywordLine : Nat) : Prop where
  le : line ≤ keywordLine
  between : ∀ i, line ≤ i → i < keywordLine → ∃ blank, (lines cs)[i - 1]? = some blank ∧ Blanks blank
  inFront : ∃ before after, (lines cs)[keywordLine - 1]? = some (before ++ "contract".toList ++ after) ∧
    (lines (cs.take keyword)).getLast? = some before ∧ Blanks before
  above : line = 1 ∨ ∃ other, (lines cs)[line - 2]? = some other ∧ ¬Blanks other

section

variable {cs : List Char} {spans : List (Nat × ContractSpan)} (h : Leftmost (SitsAt cs) width 0 spans)
  {span : Nat × ContractSpan} (hs : span ∈ spans)

include h hs

/-- The line above a declaration that is taken is not white space: the declaration could begin there as well, and what
    is taken before it ends with a name. -/
theorem not_blanks_above {front above : List Char} (text : cs.take span.1 = front ++ (above ++ ['\n']))
    (start : endsLine front = true) : ¬Blanks above := by
  intro blank
  obtain ⟨-, formed, rest, behind, stops⟩ := h.sits span hs
  have whole : cs = front ++ (above ++ ['\n'] ++ (span.2.chars ++ rest)) := by
    rw [← behind, ← List.append_assoc, ← text, List.take_append_drop]
  have blanks : Blanks (above ++ ['\n']) :=
    List.forall_mem_append.mpr ⟨blank, List.forall_mem_singleton.mpr (by decide)⟩
  have place : span.1 = front.length + (above.length + 1) := by
    have long := congrArg List.length text
    rwa [List.length_take_of_le (formed.le_length behind), List.length_append, List.length_append] at long
  have earlier : SitsAt cs front.length { span.2 with indent := above ++ ['\n'] ++ span.2.indent } := by
    refine ⟨(endsLine_take_iff (by rw [whole]; simp)).mp (by rwa [whole, List.take_left]), ?_, rest, ?_, stops⟩
    · exact { formed with indent := List.forall_mem_append.mpr ⟨blanks, formed.indent⟩ }
    · rw [whole, List.drop_left]
      simp only [chars, List.append_assoc]
  obtain ⟨other, ho, before, inside⟩ := h.covers (Nat.zero_le _) earlier
  obtain ⟨c, last, named⟩ := (h.sits other ho).exists_last
  rcases h.apart ho hs with rfl | apart | apart
  · omega
  · -- The name of the declaration before this one would end in the line above.
    have between : cs[other.1 + width other.2 - 1]? =
        (above ++ ['\n'])[other.1 + width other.2 - 1 - front.length]? := by
      rw [whole, List.getElem?_append_right (by omega), List.getElem?_append_left (by simp; omega)]
    rw [between] at last
    have blank := blanks c (List.mem_of_getElem? last)
    rw [isBlank_eq_false_of_isIdentifierChar named] at blank
    cases blank
  · omega

theorem atTop_of_mem : AtTop cs (span.1 + span.2.indent.length) (lineCount (cs.take span.1))
    (lineCount (cs.take (span.1 + span.2.indent.length))) := by
  obtain ⟨start, formed, rest, behind, -⟩ := h.sits span hs
  obtain ⟨above, before, cut, ended, inside⟩ := exists_last_line span.2.indent
  have start := (endsLine_take_iff (formed.le_length behind)).mpr start
  have blank := formed.indent
  rw [cut, Blanks, List.forall_mem_append] at blank
  have reached : cs.take (span.1 + span.2.indent.length) = cs.take span.1 ++ (above ++ before) := by
    rw [List.take_add, behind, chars_append, List.take_left, cut]
  have whole : cs = cs.take span.1 ++
      (above ++ (before ++ ("contract".toList ++ (span.2.gap ++ (span.2.name ++ rest))))) := by
    rw [← List.append_assoc above, ← cut, ← chars_append, ← behind, List.take_append_drop]
  have number : lineCount (cs.take (span.1 + span.2.indent.length)) = (cs.take span.1 ++ above).count '\n' + 1 := by
    rw [reached, lineCount, ← List.append_assoc, List.count_append, List.count_eq_zero.mpr inside, Nat.add_zero]
  rw [number]
  constructor
  case le =>
    rw [lineCount, List.count_append]
    omega
  case between =>
    intro i low high
    rw [lineCount] at low
    rw [List.count_append] at high
    obtain ⟨j, rfl⟩ := Nat.exists_eq_add_of_le low
    obtain ⟨line, hm, found⟩ := exists_getElem?_lines_append ended
      (before ++ ("contract".toList ++ (span.2.gap ++ (span.2.name ++ rest)))) (i := j) (by omega)
    refine ⟨line, ?_, fun c hc => blank.1 c (mem_of_mem_splitOn hm hc)⟩
    rw [← getElem?_lines_append start, ← whole] at found
    rw [← found]
    congr 1
    omega
  case inFront =>
    obtain ⟨after, others, onward, insideAfter, endedAfter⟩ := exists_first_line (span.2.gap ++ (span.2.name ++ rest))
    have onLine : '\n' ∉ before ++ "contract".toList ++ after := by
      simp [inside, insideAfter]
    refine ⟨before, after, ?_, ?_, blank.2⟩
    · have found := getElem?_lines (endsLine_append start ended) onLine endedAfter
      rwa [List.append_assoc, List.append_assoc _ after, ← onward, List.append_assoc before, ← whole] at found
    · rw [reached, ← List.append_assoc]
      exact getLast?_lines (endsLine_append start ended) inside
  case above =>
    rcases endsLine_iff.mp start with first | ⟨front, last⟩
    · exact Or.inl (by simp [first, lineCount])
    · obtain ⟨front, other, rfl, ended, inside⟩ := exists_last_line front
      rw [List.append_assoc] at last
      refine Or.inr ⟨other, ?_, not_blanks_above h hs last ended⟩
      have newline : ['\n'] ++ cs.drop span.1 = [] ∨ (['\n'] ++ cs.drop span.1).head? = some '\n' := Or.inr rfl
      have found := getElem?_lines ended inside newline
      rw [← List.append_assoc other, ← List.append_assoc, ← last, List.take_append_drop] at found
      rw [← found, last, lineCount, List.count_append, List.count_append, List.count_eq_zero.mpr inside]
      rfl

end

end ContractSpan

open ContractSpan

/-- The contract declarations of a text are the one list of spans that a search from its front takes. -/
theorem leftmost_contracts (cs : List Char) :
    ∃ spans, Leftmost (SitsAt cs) width 0 spans ∧ (∀ others, Leftmost (SitsAt cs) width 0 others → others = spans) ∧
      contracts cs = spans.map fun span => (lineCount (cs.take span.1), span.2) :=
  leftmost_occurrences (fun h => narrow_read? h) (foundAt_iff cs)

end SolidityLint.Declaration

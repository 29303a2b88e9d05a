import SolidityLint.Proofs.Check.Messages
import SolidityLint.Proofs.Identifiers
import SolidityLint.Proofs.Text.Joined
import SolidityLint.Report

/-! Single lines of a report. A line has no newline in it, and what it says can be read from it again: a severity ends
    at its bracket, a number at what is no digit, an identifier at the blank behind it, and the blanks that fill up a
    cell of the table are no digits. -/

namespace SolidityLint

/-! ### Texts on one line -/

/-- Whether a text stands on one line. -/
def RawText.OnOneLine (s : RawText) : Prop :=
  .char '\n' ∉ s.points

namespace RawText

@[simp] theorem onOneLine_append {s t : RawText} : (s ++ t).OnOneLine ↔ s.OnOneLine ∧ t.OnOneLine := by
  simp [OnOneLine]

@[simp] theorem onOneLine_ofString {s : String} : (ofString s).OnOneLine ↔ '\n' ∉ s.toList := by
  simp [OnOneLine, ofString, ofChars]

theorem append_right_cancel {s t u : RawText} (h : s ++ u = t ++ u) : s = t :=
  points_injective (List.append_cancel_right (congrArg points h))

/-- The text cut at its newlines. -/
def lines (s : RawText) : List RawText :=
  (Text.splitOn (.char '\n') s.points).map mk

theorem lines_eq_singleton {s : RawText} (h : s.OnOneLine) : s.lines = [s] := by
  rw [lines, Text.splitOn_of_notMem h]
  rfl

/-- The lines of what is joined are those of its parts. -/
theorem lines_joined {parts : List RawText} (hn : parts ≠ []) : (joined "\n" parts).lines = parts.flatMap lines := by
  have pieces : (joined "\n" parts).points = Text.joinWith (.char '\n') (parts.map points) := points_joined _ parts
  rw [lines, pieces, Text.splitOn_joinWith_eq_flatMap _ (fun e => hn (List.map_eq_nil_iff.mp e)), List.map_flatMap,
    List.flatMap_map]
  rfl

theorem flatMap_lines_eq_self {parts : List RawText} (h : ∀ part ∈ parts, part.OnOneLine) :
    parts.flatMap lines = parts := by
  induction parts with
  | nil => rfl
  | cons part rest ih =>
    obtain ⟨own, others⟩ := List.forall_mem_cons.mp h
    rw [List.flatMap_cons, lines_eq_singleton own, ih others, List.singleton_append]

/-- Lines are found again in the text they make. -/
theorem joined_newline_injective {parts parts' : List RawText} (hn : parts ≠ []) (hn' : parts' ≠ [])
    (h : ∀ part ∈ parts, part.OnOneLine) (h' : ∀ part ∈ parts', part.OnOneLine)
    (he : joined "\n" parts = joined "\n" parts') : parts = parts' :=
  joined_injective hn hn' h h' he

end RawText

/-! ### Lines about a finding -/

/-- What holds of a finding that a check makes in a file: it is that of a violation, and its message stands on one
    line. -/
def Finding.MadeIn (path : RawText) (finding : Finding) : Prop :=
  ∃ (violation : Violation) (severities : SeverityMap),
    violation.OnOneLine ∧ finding = violation.toFinding severities path

theorem Severity.bracket_notMem_word (s : Severity) : ']' ∉ s.word.toList := by
  cases s <;> decide

theorem Severity.newline_notMem_word (s : Severity) : '\n' ∉ s.word.toList := by
  cases s <;> decide

theorem Rule.blank_notMem_id (rule : Rule) : ' ' ∉ rule.id.toList := by
  cases rule <;> decide

theorem Rule.newline_notMem_id (rule : Rule) : '\n' ∉ rule.id.toList := by
  cases rule <;> decide

theorem Rule.newline_notMem_code (rule : Rule) : '\n' ∉ rule.code.toList := by
  cases rule <;> decide

theorem digits_injective {n m : Nat} (h : Nat.toDigits 10 n = Nat.toDigits 10 m) : n = m := by
  rw [← Nat.ofDigitChars_ten_toDigits (n := n), h, Nat.ofDigitChars_ten_toDigits]

theorem toString_injective {n m : Nat} (h : toString n = toString m) : n = m :=
  digits_injective (by simpa using congrArg String.toList h)

namespace Report

/-- The characters of the two lines about the finding of a violation, cut where its parts end. -/
theorem findingLines_toFinding (violation : Violation) (severities : SeverityMap) (path : RawText) :
    (findingLines (violation.toFinding severities path)).map String.toList =
      ["  [".toList ++ ((severities.resolve violation.rule.id).word.toList ++ ']' :: (" Line ".toList ++
          (Nat.toDigits 10 violation.line ++ ':' :: (' ' :: violation.message.toList)))),
        "      Rule: ".toList ++ (violation.rule.id.toList ++ ' ' :: ("(".toList ++ violation.rule.code.toList ++
          ")".toList))] := by
  have digits : toString (violation.line : Int) = violation.line.repr := rfl
  simp [findingLines, Violation.toFinding, digits]

theorem findingLines_injective {path : RawText} {one two : Finding} (h₁ : one.MadeIn path) (h₂ : two.MadeIn path)
    (h : findingLines one = findingLines two) : one = two := by
  obtain ⟨v, severities, -, rfl⟩ := h₁
  obtain ⟨v', severities', -, rfl⟩ := h₂
  have lines := congrArg (List.map String.toList) h
  rw [findingLines_toFinding, findingLines_toFinding] at lines
  obtain ⟨first, second⟩ := List.cons.inj lines
  -- The first line: severity, number and message.
  obtain ⟨word, first⟩ := Text.cut_unique (Severity.bracket_notMem_word _) (Severity.bracket_notMem_word _)
    (List.append_cancel_left first)
  obtain ⟨number, message⟩ := Text.cut_unique (Text.notMem_toDigits (by decide) _) (Text.notMem_toDigits (by decide) _)
    (List.append_cancel_left first)
  -- The second line: the rule, which decides the code.
  obtain ⟨id, -⟩ := Text.cut_unique (Rule.blank_notMem_id _) (Rule.blank_notMem_id _)
    (List.append_cancel_left (List.cons.inj second).1)
  have severity := Severity.word_injective (String.toList_inj.mp word)
  have line := digits_injective number
  have rule := Rule.id_injective (String.toList_inj.mp id)
  have said := String.toList_inj.mp (List.cons.inj message).2
  rw [Violation.toFinding, Violation.toFinding, severity, line, rule, said]

/-- The two lines of a finding stand on two lines. -/
theorem findingLines_onOneLine {path : RawText} {finding : Finding} (h : finding.MadeIn path) :
    ∀ line ∈ findingLines finding, '\n' ∉ line.toList := by
  obtain ⟨v, severities, message, rfl⟩ := h
  have word := (severities.resolve v.rule.id).newline_notMem_word
  have digits := Text.notMem_toDigits (c := '\n') (by decide) v.line
  have number : toString (v.line : Int) = v.line.repr := rfl
  simp only [Violation.OnOneLine] at message
  simp [findingLines, Violation.toFinding, word, digits, number, message, v.rule.newline_notMem_id,
    v.rule.newline_notMem_code]

theorem length_findingLines (finding : Finding) : (findingLines finding).length = 2 := rfl

/-- No line about a finding is empty. -/
theorem ne_empty_of_mem_findingLines {finding : Finding} {line : String} (h : line ∈ findingLines finding) :
    line ≠ "" := by
  simp only [findingLines, List.mem_cons, List.not_mem_nil, or_false] at h
  rintro rfl
  rcases h with h | h <;> simp [← String.toList_inj] at h

/-! ### Rows of the table -/

/-- The blanks in front of a number are no part of it. -/
theorem padLeft_toString_injective {width n m : Nat} (h : padLeft width (toString n) = padLeft width (toString m)) :
    n = m := by
  have unpad (k : Nat) : (padLeft width (toString k)).toList.filter (· ≠ ' ') = Nat.toDigits 10 k := by
    have digits : (Nat.toDigits 10 k).filter (· ≠ ' ') = Nat.toDigits 10 k := by
      refine List.filter_eq_self.mpr fun c hc => decide_eq_true fun blank => ?_
      exact Text.notMem_toDigits (by decide) k (blank ▸ hc)
    simpa [padLeft, List.filter_append] using digits
  exact digits_injective (by rw [← unpad n, ← unpad m, h])

theorem row_toString_injective {left : String} {n m : Nat} (h : row left (toString n) = row left (toString m)) :
    n = m :=
  padLeft_toString_injective ((String.append_right_inj _).mp h)

theorem row_onOneLine {left right : String} (hl : '\n' ∉ left.toList) (hr : '\n' ∉ right.toList) :
    '\n' ∉ (row left right).toList := by
  simp [row, padLeft, padRight, hl, hr]

end Report

end SolidityLint

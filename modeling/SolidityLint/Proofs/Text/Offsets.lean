import Mathlib.Algebra.GroupWithZero.Nat
import SolidityLint.Proofs.Text.Lines
import SolidityLint.Source

/-! Lines and offsets. Where a line starts is the sum of the lengths of the lines before it, each with its newline
    (`lineStart`), and the number of the line at an offset is the number of newlines before the offset (`lineOf`). The
    two agree: the text before an offset is the lines that have ended there, whose lengths sum up to a line start, and
    the beginning of one more line. -/

namespace SolidityLint

namespace Text

variable {cs front line rest : List Char} {o o' : Nat}

/-- The offset where a line starts, given the number of lines before it. -/
def lineStart (cs : List Char) (before : Nat) : Nat :=
  (((lines cs).take before).map fun line => line.length + 1).sum

theorem length_joinWith_newline {parts : List (List Char)} (hn : parts ≠ []) :
    (parts.map fun part => part.length + 1).sum = (joinWith '\n' parts).length + 1 := by
  induction parts with
  | nil => exact absurd rfl hn
  | cons part others ih =>
    rcases others with _ | ⟨next, others⟩
    · simp [joinWith]
    · have more := ih (List.cons_ne_nil next others)
      rw [List.map_cons, List.sum_cons, more, joinWith_cons_cons]
      simp only [List.length_append, List.length_cons]
      omega

theorem sum_lines (cs : List Char) : ((lines cs).map fun line => line.length + 1).sum = cs.length + 1 := by
  rw [lines, length_joinWith_newline (splitOn_ne_nil '\n' cs), joinWith_splitOn]

theorem sum_dropLast_lines (ended : endsLine front = true) :
    ((lines front).dropLast.map fun line => line.length + 1).sum = front.length := by
  rcases endsLine_iff.mp ended with rfl | ⟨before, rfl⟩
  · rfl
  · have ends : lines (before ++ ['\n']) = lines before ++ [[]] := splitOn_append '\n' before []
    rw [ends, List.dropLast_concat, sum_lines]
    simp

/-- Where the lines before it have ended, a line starts. -/
theorem lineStart_append (ended : endsLine front = true) (rest : List Char) :
    lineStart (front ++ rest) (front.count '\n') = front.length := by
  rw [lineStart, lines_append ended, ← length_dropLast_lines, List.take_left, sum_dropLast_lines ended]

/-! ### The line at an offset -/

theorem lineOf_natCast (inside : o ≤ cs.length) : lineOf cs o = (cs.take o).count '\n' + 1 := by
  have clipped : clipOffset cs.length o = o := by
    rw [clipOffset, if_neg (by omega)]
    simp [inside]
  rw [lineOf, clipped, lineCount]

/-- An offset lies on a line behind the lines that have ended before it, or at the end of that line. -/
theorem exists_line_at (inside : o ≤ cs.length) :
    ∃ front line rest, cs = front ++ (line ++ rest) ∧ endsLine front = true ∧ '\n' ∉ line ∧
      (rest = [] ∨ rest.head? = some '\n') ∧ front.count '\n' = (cs.take o).count '\n' ∧
      front.length ≤ o ∧ o ≤ front.length + line.length := by
  obtain ⟨front, start, before, ended, startInside⟩ := exists_last_line (cs.take o)
  obtain ⟨finish, rest, behind, finishInside, ended'⟩ := exists_first_line (cs.drop o)
  have width := congrArg List.length before
  rw [List.length_append, List.length_take, Nat.min_eq_left inside] at width
  refine ⟨front, start ++ finish, rest, ?_, ended, by simp [startInside, finishInside], ended', ?_, by omega, ?_⟩
  · calc cs = cs.take o ++ cs.drop o := (List.take_append_drop o cs).symm
      _ = front ++ (start ++ finish ++ rest) := by rw [before, behind]; simp
  · rw [before, List.count_append, List.count_eq_zero_of_not_mem startInside, Nat.add_zero]
  · rw [List.length_append]
    omega

/-- The line at an offset is found under its number; it starts at the offset or before it, and it goes on up to the
    offset at least. What stands at the offset is a character of the line or the newline behind it. -/
theorem line_at (inside : o ≤ cs.length) :
    ∃ line, (lines cs)[lineOf cs o - 1]? = some line ∧ lineStart cs (lineOf cs o - 1) ≤ o ∧
      o ≤ lineStart cs (lineOf cs o - 1) + line.length ∧
      ∀ c, cs[o]? = some c → (line ++ ['\n'])[o - lineStart cs (lineOf cs o - 1)]? = some c := by
  rw [lineOf_natCast inside, Nat.add_sub_cancel]
  obtain ⟨front, line, rest, rfl, ended, lineInside, ended', same, low, high⟩ := exists_line_at inside
  rw [← same, lineStart_append ended]
  refine ⟨line, getElem?_lines ended lineInside ended', low, high, fun c here => ?_⟩
  rw [List.getElem?_append_right low] at here
  rcases ended' with rfl | newline
  · rw [List.append_nil] at here
    have within : o - front.length < line.length := (List.getElem?_eq_some_iff.mp here).1
    rwa [List.getElem?_append_left within]
  · obtain ⟨more, rfl⟩ := List.head?_eq_some_iff.mp newline
    have both : line ++ '\n' :: more = (line ++ ['\n']) ++ more := by simp
    rwa [both, List.getElem?_append_left (by simp; omega)] at here

theorem lineOf_mono (order : o ≤ o') (inside : o' ≤ cs.length) : lineOf cs o ≤ lineOf cs o' := by
  rw [lineOf_natCast (Nat.le_trans order inside), lineOf_natCast inside]
  have shorter : (cs.take o).Sublist (cs.take o') := (List.take_prefix_take_left order).sublist
  exact Nat.succ_le_succ (shorter.count_le '\n')

theorem lineOf_length (cs : List Char) : lineOf cs cs.length = (lines cs).length := by
  rw [lineOf_natCast (Nat.le_refl _), List.take_length, length_lines, lineCount]

/-! ### Offsets outside the text -/

/-- A negative offset counts from the end, and then what is outside moves to the nearer end. -/
theorem clipOffset_eq (length : Nat) (offset : Int) :
    (clipOffset length offset : Int) = max 0 (min (if offset < 0 then offset + length else offset) length) := by
  unfold clipOffset
  split <;> omega

theorem clipOffset_le (length : Nat) (offset : Int) : clipOffset length offset ≤ length := by
  have := clipOffset_eq length offset
  omega

theorem lineOf_clipOffset (cs : List Char) (offset : Int) : lineOf cs (clipOffset cs.length offset) = lineOf cs offset := by
  rw [lineOf_natCast (clipOffset_le _ _)]
  rfl

theorem lineOf_le (cs : List Char) (offset : Int) : lineOf cs offset ≤ (lines cs).length := by
  rw [← lineOf_clipOffset, ← lineOf_length]
  exact lineOf_mono (clipOffset_le _ _) (Nat.le_refl _)

end Text

open Text

/-- The lines of a file make its text, and each offset into the text lies on the line with the number that is told for
    it, or at the end of that line: between its start, which is the sum of the lengths of the lines before it with their
    newlines, and its end. Later offsets are on later lines or on the same one, and the end of the text is on the last
    line. An offset outside the text is taken for one inside, so that the number is always that of a line. -/
theorem lines_and_offsets_agree (source : Source) :
    source.lines ≠ [] ∧ (∀ line ∈ source.lines, '\n' ∉ line) ∧ unlines source.lines = source.text.toList ∧
    (∀ o : Nat, o ≤ source.text.length →
      ∃ line, source.lines[source.lineOf o - 1]? = some line ∧
        lineStart source.text.toList (source.lineOf o - 1) ≤ o ∧
        o ≤ lineStart source.text.toList (source.lineOf o - 1) + line.length ∧
        ∀ c, source.text.toList[o]? = some c →
          (line ++ ['\n'])[o - lineStart source.text.toList (source.lineOf o - 1)]? = some c) ∧
    (∀ o o' : Nat, o ≤ o' → o' ≤ source.text.length → source.lineOf o ≤ source.lineOf o') ∧
    source.lineOf source.text.length = source.lines.length ∧
    ∀ offset : Int,
      source.lineOf offset =
        source.lineOf (max 0 (min (if offset < 0 then offset + source.text.length else offset) source.text.length)) ∧
      1 ≤ source.lineOf offset ∧ source.lineOf offset ≤ source.lines.length := by
  simp only [← String.length_toList]
  refine ⟨splitOn_ne_nil _ _, fun line there => separator_notMem_of_mem_splitOn there, joinWith_splitOn _ _,
    fun o inside => line_at inside, fun o o' order inside => lineOf_mono order inside, lineOf_length _,
    fun offset => ⟨?_, Nat.le_add_left 1 _, lineOf_le _ _⟩⟩
  rw [← clipOffset_eq]
  exact (lineOf_clipOffset _ offset).symm

/-- The offset of the newline that ends the first line, and that of the empty line behind it. -/
theorem lines_and_offsets_agree_newline :
    let source : Source := ⟨"A.sol", "ab\n\nc"⟩
    source.lineOf 2 = 1 ∧ 2 ≤ source.text.length ∧
      (∃ line, source.lines[0]? = some line ∧ lineStart source.text.toList 0 ≤ 2 ∧
        2 ≤ lineStart source.text.toList 0 + line.length ∧
        ∀ c, source.text.toList[2]? = some c → (line ++ ['\n'])[2 - lineStart source.text.toList 0]? = some c) ∧
      3 ≤ 5 ∧ 5 ≤ source.text.length ∧ source.lineOf 3 ≤ source.lineOf 5 := by
  intro source
  obtain ⟨-, -, -, at_offset, mono, -⟩ := lines_and_offsets_agree source
  have number : source.lineOf 2 = 1 := by decide +kernel
  have inside : 5 ≤ source.text.length := by decide +kernel
  have first := at_offset 2 (by omega)
  rw [show source.lineOf (2 : Nat) = 1 from number] at first
  exact ⟨number, by omega, first, by decide, inside, mono 3 5 (by decide) inside⟩

end SolidityLint

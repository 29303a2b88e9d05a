import Mathlib.Data.List.Induction
import SolidityLint.Proofs.Text.Joined
import SolidityLint.Proofs.Text.Leftmost

/-! Lines and where they begin. A line begins at the start of the text and behind each newline (`endsLine`), so a text
    that is cut there has the lines of its two parts, and the number of a line is the number of newlines in front of
    it. -/

namespace SolidityLint.Text

variable {front line rest : List Char}

theorem endsLine_iff : endsLine front = true ↔ front = [] ∨ ∃ before, front = before ++ ['\n'] := by
  rcases List.eq_nil_or_concat front with rfl | ⟨before, c, rfl⟩
  · simp [endsLine]
  · simp [endsLine]

theorem endsLine_take_iff {cs : List Char} {p : Nat} (h : p ≤ cs.length) :
    endsLine (cs.take p) = true ↔ p = 0 ∨ cs[p - 1]? = some '\n' := by
  cases p with
  | zero => simp [endsLine]
  | succ p =>
    have inside : cs[p]? = some cs[p] := List.getElem?_eq_getElem h
    simp [endsLine, List.getLast?_take, inside]

/-- A text is the lines that have ended, and the last line. -/
theorem exists_last_line (cs : List Char) : ∃ front line, cs = front ++ line ∧ endsLine front = true ∧ '\n' ∉ line := by
  induction cs using List.reverseRecOn with
  | nil => exact ⟨[], [], rfl, rfl, List.not_mem_nil⟩
  | append_singleton cs c ih =>
    obtain ⟨front, line, rfl, ended, inside⟩ := ih
    by_cases newline : c = '\n'
    · subst newline
      exact ⟨front ++ line ++ ['\n'], [], by simp, by simp [endsLine], List.not_mem_nil⟩
    · refine ⟨front, line ++ [c], by simp, ended, ?_⟩
      simp [inside, Ne.symm newline]

theorem exists_first_line (cs : List Char) :
    ∃ line rest, cs = line ++ rest ∧ '\n' ∉ line ∧ (rest = [] ∨ rest.head? = some '\n') := by
  induction cs with
  | nil => exact ⟨[], [], rfl, List.not_mem_nil, Or.inl rfl⟩
  | cons c cs ih =>
    by_cases newline : c = '\n'
    · exact ⟨[], c :: cs, rfl, List.not_mem_nil, Or.inr (newline ▸ rfl)⟩
    · obtain ⟨line, rest, rfl, inside, ended⟩ := ih
      exact ⟨c :: line, rest, rfl, by simp [inside, Ne.symm newline], ended⟩

theorem endsLine_append (ended : endsLine front = true) (ended' : endsLine line = true) :
    endsLine (front ++ line) = true := by
  rcases endsLine_iff.mp ended' with rfl | ⟨before, rfl⟩
  · rwa [List.append_nil]
  · exact endsLine_iff.mpr (Or.inr ⟨front ++ before, by rw [List.append_assoc]⟩)

theorem lines_append (ended : endsLine front = true) (rest : List Char) :
    lines (front ++ rest) = (lines front).dropLast ++ lines rest := by
  rcases endsLine_iff.mp ended with rfl | ⟨before, rfl⟩
  · rfl
  · rw [List.append_assoc, List.singleton_append, lines, splitOn_append, lines, splitOn_append]
    simp [lines]

theorem length_dropLast_lines (cs : List Char) : (lines cs).dropLast.length = cs.count '\n' := by
  simp [length_lines, lineCount]

/-- The lines behind a place where a line begins. -/
theorem getElem?_lines_append (ended : endsLine front = true) (rest : List Char) (i : Nat) :
    (lines (front ++ rest))[front.count '\n' + i]? = (lines rest)[i]? := by
  rw [lines_append ended, List.getElem?_append_right (by rw [length_dropLast_lines]; omega),
    length_dropLast_lines, Nat.add_sub_cancel_left]

/-- The lines in front of it. -/
theorem exists_getElem?_lines_append (ended : endsLine front = true) (rest : List Char) {i : Nat}
    (h : i < front.count '\n') : ∃ line ∈ lines front, (lines (front ++ rest))[i]? = some line := by
  have inside : i < (lines front).dropLast.length := by rwa [length_dropLast_lines]
  refine ⟨(lines front).dropLast[i], (List.dropLast_sublist _).subset (List.getElem_mem inside), ?_⟩
  rw [lines_append ended, List.getElem?_append_left inside, List.getElem?_eq_getElem inside]

theorem head?_lines (inside : '\n' ∉ line) (ended : rest = [] ∨ rest.head? = some '\n') :
    (lines (line ++ rest))[0]? = some line := by
  cases rest with
  | nil => simp [lines, splitOn_of_notMem inside]
  | cons c rest =>
    obtain rfl : c = '\n' := by simpa using ended
    rw [lines, splitOn_append, splitOn_of_notMem inside]
    rfl

/-- A line is found under its number. -/
theorem getElem?_lines (ended : endsLine front = true) (inside : '\n' ∉ line)
    (ended' : rest = [] ∨ rest.head? = some '\n') :
    (lines (front ++ (line ++ rest)))[front.count '\n']? = some line := by
  have here := getElem?_lines_append ended (line ++ rest) 0
  rwa [head?_lines inside ended'] at here

theorem getLast?_lines (ended : endsLine front = true) (inside : '\n' ∉ line) :
    (lines (front ++ line)).getLast? = some line := by
  rw [lines_append ended, lines, lines, splitOn_of_notMem inside, List.getLast?_append]
  rfl

/-! ### Numbered lines -/

theorem numbered_append (one two : List (List Char)) :
    (one ++ two).zipIdx 1 = one.zipIdx 1 ++ (two.zipIdx 1).map (Prod.map id (· + one.length)) := by
  rw [List.zipIdx_append, List.map_snd_add_zipIdx_eq_zipIdx, Nat.add_comm]

theorem pairwise_number (lines : List (List Char)) : (lines.zipIdx 1).Pairwise fun a b => a.2 < b.2 := by
  have numbers : ((lines.zipIdx 1).map (·.2)).Pairwise (· < ·) := by
    rw [List.zipIdx_map_snd]
    exact List.pairwise_lt_range'
  exact List.pairwise_map.mp numbers

theorem number_bounds {lines : List (List Char)} {numbered : List Char × Nat} (h : numbered ∈ lines.zipIdx 1) :
    1 ≤ numbered.2 ∧ numbered.2 ≤ lines.length := by
  have low := List.le_snd_of_mem_zipIdx h
  have high := List.snd_lt_add_of_mem_zipIdx h
  omega

/-! ### Words on a line -/

/-- A word without a newline stands in a text just if it stands in one of the lines. -/
theorem infix_iff_exists_line {word cs : List Char} (h : '\n' ∉ word) :
    word <:+: cs ↔ ∃ line ∈ lines cs, word <:+: line := by
  constructor
  · rintro ⟨before, after, rfl⟩
    -- The line reaches from the last newline in front of the word to the first one behind it.
    obtain ⟨front, start, rfl, ended, inside⟩ := exists_last_line before
    obtain ⟨finish, rest, rfl, inside', ended'⟩ := exists_first_line after
    have whole : '\n' ∉ start ++ word ++ finish := by simp [inside, h, inside']
    have here := getElem?_lines ended whole ended'
    refine ⟨start ++ word ++ finish, ?_, start, finish, rfl⟩
    have text : front ++ start ++ word ++ (finish ++ rest) = front ++ (start ++ word ++ finish ++ rest) := by
      simp only [List.append_assoc]
    rw [text]
    exact List.mem_of_getElem? here
  · rintro ⟨line, hl, inside⟩
    rw [← joinWith_splitOn '\n' cs]
    exact inside.trans (infix_joinWith '\n' hl)

end SolidityLint.Text

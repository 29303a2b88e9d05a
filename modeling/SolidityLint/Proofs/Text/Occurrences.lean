import SolidityLint.Text.Lines
import SolidityLint.Text.Occurrences

/-! Lines of occurrences. A search goes through a text from front to back and counts the newlines it passes, so an
    occurrence stands on a line of the text, and the lines of occurrences never decrease. -/

namespace SolidityLint.Text

variable {α : Type} {read : Bool → List Char → Option α} {width : α → Nat}

/-- What is found from a line on stands on that line, or on one that a newline of the text leads to. -/
theorem line_bounds_of_mem_occurrencesFrom {line skip : Nat} {atLineStart : Bool} {cs : List Char} {found : Nat × α}
    (h : found ∈ occurrencesFrom read width line skip atLineStart cs) :
    line ≤ found.1 ∧ found.1 ≤ line + cs.count '\n' := by
  induction cs generalizing line skip atLineStart with
  | nil =>
    rw [occurrencesFrom] at h
    cases h
  | cons c rest ih =>
    -- Behind the first character the count has gone up if that was a newline.
    have behind {skip : Nat}
        (h : found ∈ occurrencesFrom read width (if c = '\n' then line + 1 else line) skip (c = '\n') rest) :
        line ≤ found.1 ∧ found.1 ≤ line + (c :: rest).count '\n' := by
      have bounds := ih h
      rw [List.count_cons]
      by_cases hc : c = '\n' <;> simp [hc] at bounds ⊢ <;> omega
    cases skip with
    | succ skip =>
      rw [occurrencesFrom] at h
      exact behind h
    | zero =>
      rw [occurrencesFrom] at h
      split at h
      · rcases List.mem_cons.mp h with rfl | h
        · exact ⟨Nat.le_refl _, Nat.le_add_right _ _⟩
        · exact behind h
      · exact behind h

theorem pairwise_line_occurrencesFrom (line skip : Nat) (atLineStart : Bool) (cs : List Char) :
    (occurrencesFrom read width line skip atLineStart cs).Pairwise fun a b => a.1 ≤ b.1 := by
  induction cs generalizing line skip atLineStart with
  | nil =>
    rw [occurrencesFrom]
    exact List.Pairwise.nil
  | cons c rest ih =>
    cases skip with
    | succ skip =>
      rw [occurrencesFrom]
      exact ih _ _ _
    | zero =>
      rw [occurrencesFrom]
      split
      · refine List.pairwise_cons.mpr ⟨fun next hn => ?_, ih _ _ _⟩
        have later := (line_bounds_of_mem_occurrencesFrom hn).1
        split at later
        · exact Nat.le_of_succ_le later
        · exact later
      · exact ih _ _ _

theorem line_bounds_of_mem_occurrences {cs : List Char} {found : Nat × α} (h : found ∈ occurrences read width cs) :
    1 ≤ found.1 ∧ found.1 ≤ lineCount cs := by
  have bounds := line_bounds_of_mem_occurrencesFrom h
  rw [lineCount]
  omega

theorem pairwise_line_occurrences (read : Bool → List Char → Option α) (width : α → Nat) (cs : List Char) :
    (occurrences read width cs).Pairwise fun a b => a.1 ≤ b.1 :=
  pairwise_line_occurrencesFrom 1 0 true cs

end SolidityLint.Text

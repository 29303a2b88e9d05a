import SolidityLint.Naming.Style

/-! The names of a casing style. A style passes over one newline at the end of a text, and the names themselves have no
    newline in them, so a text without newlines, such as an identifier, is admitted just when it is a name of the
    style. -/

namespace SolidityLint

/-- A character of one kind, then any number of characters of another. -/
def IsWord (start inside : Char → Bool) : List Char → Prop
  | [] => False
  | c :: rest => start c = true ∧ ∀ d ∈ rest, inside d = true

theorem IsWord.notMem {start inside : Char → Bool} {c : Char} (hs : start c = false) (hi : inside c = false)
    {word : List Char} (h : IsWord start inside word) : c ∉ word := by
  intro hm
  cases word with
  | nil => exact h
  | cons first more =>
    obtain ⟨starts, inside⟩ := h
    rcases List.mem_cons.mp hm with rfl | hm
    · simp [hs] at starts
    · simpa [hi] using inside c hm

namespace NameStyle

/-- Whether a text is a name of a style, from its first character to its last. -/
def Fits : NameStyle → List Char → Prop
  | .capWords, name => IsWord Char.isUpper Char.isAlphanum name
  | .mixedCase, name => IsWord Char.isLower Char.isAlphanum name
  | .underscoreMixedCase, name => ∃ rest, name = '_' :: rest ∧ IsWord Char.isLower Char.isAlphanum rest
  | .upperCase, name => IsWord Char.isUpper (fun c => c.isUpper || c.isDigit || c = '_') name

variable {style : NameStyle} {name : List Char}

theorem isCapWords_iff : isCapWords name = true ↔ capWords.Fits name := by
  cases name <;> simp [isCapWords, Fits, IsWord]

theorem isMixedCase_iff : isMixedCase name = true ↔ mixedCase.Fits name := by
  cases name <;> simp [isMixedCase, Fits, IsWord]

theorem isUnderscoreMixedCase_iff : isUnderscoreMixedCase name = true ↔ underscoreMixedCase.Fits name := by
  cases name with
  | nil => simp [isUnderscoreMixedCase, Fits]
  | cons c rest =>
    rw [isUnderscoreMixedCase, Bool.and_eq_true, isMixedCase_iff, decide_eq_true_eq]
    constructor
    · rintro ⟨rfl, word⟩
      exact ⟨rest, rfl, word⟩
    · rintro ⟨_, ⟨⟩, word⟩
      exact ⟨rfl, word⟩

theorem isUpperCase_iff : isUpperCase name = true ↔ upperCase.Fits name := by
  cases name <;> simp [isUpperCase, Fits, IsWord]

theorem admits_iff : style.admits name = true ↔ style.Fits (dropFinalNewline name) := by
  cases style with
  | capWords => exact isCapWords_iff
  | mixedCase => exact isMixedCase_iff
  | underscoreMixedCase => exact isUnderscoreMixedCase_iff
  | upperCase => exact isUpperCase_iff

theorem dropFinalNewline_of_notMem (h : '\n' ∉ name) : dropFinalNewline name = name := by
  rw [dropFinalNewline, if_neg]
  intro last
  exact h (List.mem_of_getLast? last)

theorem admits_iff_of_notMem (h : '\n' ∉ name) : style.admits name = true ↔ style.Fits name := by
  rw [admits_iff, dropFinalNewline_of_notMem h]

theorem Fits.newline_notMem (h : style.Fits name) : '\n' ∉ name := by
  cases style with
  | capWords => exact IsWord.notMem (by decide) (by decide) h
  | mixedCase => exact IsWord.notMem (by decide) (by decide) h
  | underscoreMixedCase =>
    obtain ⟨rest, rfl, word⟩ := h
    simp [word.notMem (c := '\n') (by decide) (by decide)]
  | upperCase => exact IsWord.notMem (by decide) (by decide) h

theorem fits_iff : style.Fits name ↔ '\n' ∉ name ∧ style.admits name = true := by
  constructor
  · intro h
    exact ⟨h.newline_notMem, (admits_iff_of_notMem h.newline_notMem).mpr h⟩
  · rintro ⟨h, admitted⟩
    exact (admits_iff_of_notMem h).mp admitted

instance (style : NameStyle) : DecidablePred style.Fits :=
  fun _ => decidable_of_iff _ fits_iff.symm

end NameStyle

end SolidityLint

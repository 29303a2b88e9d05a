import Mathlib.Computability.Language
import SolidityLint.Check.Naming
import SolidityLint.Proofs.Naming.Styles
import SolidityLint.Proofs.Text.LowerCase

/-! Casing styles as regular patterns over ASCII. A text is admitted just when it matches the pattern of the style, one
    newline at its end aside. The styles other than that of constants differ in the first character, so a name has at
    most one of them; a public function and an inner one never have both a right name when they have the same. -/

namespace SolidityLint

open scoped Computability

namespace NameStyle

/-- The texts of a single character between two others. -/
def between (first last : Char) : Language Char :=
  {text | ∃ c, (first ≤ c ∧ c ≤ last) ∧ text = [c]}

/-- The pattern of a style. -/
def pattern : NameStyle → Language Char
  | .capWords => between 'A' 'Z' * (between 'A' 'Z' + between 'a' 'z' + between '0' '9')∗
  | .mixedCase => between 'a' 'z' * (between 'A' 'Z' + between 'a' 'z' + between '0' '9')∗
  | .underscoreMixedCase =>
    between '_' '_' * (between 'a' 'z' * (between 'A' 'Z' + between 'a' 'z' + between '0' '9')∗)
  | .upperCase => between 'A' 'Z' * (between 'A' 'Z' + between '0' '9' + between '_' '_')∗

variable {style : NameStyle} {name : List Char}

/-! ### Patterns and words -/

/-- A pattern matches the texts of a single character of a kind. -/
def MatchesOne (kind : Char → Bool) (l : Language Char) : Prop :=
  ∀ text, text ∈ l ↔ ∃ c, kind c = true ∧ text = [c]

theorem matchesOne_capital : MatchesOne Char.isUpper (between 'A' 'Z') := fun text => by
  simp only [Text.isUpper_iff]
  rfl

theorem matchesOne_small : MatchesOne Char.isLower (between 'a' 'z') := fun text => by
  simp only [Text.isLower_iff]
  rfl

theorem matchesOne_digit : MatchesOne Char.isDigit (between '0' '9') := fun text => by
  simp only [Char.isDigit, Bool.and_eq_true, decide_eq_true_eq]
  rfl

theorem matchesOne_self (c : Char) : MatchesOne (· = c) (between c c) := fun text => by
  constructor
  · rintro ⟨d, ⟨low, high⟩, rfl⟩
    exact ⟨d, by simpa using Char.le_antisymm high low, rfl⟩
  · rintro ⟨d, same, rfl⟩
    obtain rfl : d = c := by simpa using same
    exact ⟨d, ⟨Char.le_refl d, Char.le_refl d⟩, rfl⟩

theorem MatchesOne.add {kind kind' : Char → Bool} {l l' : Language Char} (h : MatchesOne kind l)
    (h' : MatchesOne kind' l') : MatchesOne (fun c => kind c || kind' c) (l + l') := fun text => by
  rw [Language.mem_add, h, h']
  simp only [Bool.or_eq_true, or_and_right, exists_or]

theorem matchesOne_alphanum :
    MatchesOne Char.isAlphanum (between 'A' 'Z' + between 'a' 'z' + between '0' '9') :=
  (matchesOne_capital.add matchesOne_small).add matchesOne_digit

theorem MatchesOne.mem_kstar {kind : Char → Bool} {l : Language Char} (h : MatchesOne kind l) {text : List Char} :
    text ∈ l∗ ↔ ∀ c ∈ text, kind c = true := by
  rw [Language.mem_kstar]
  constructor
  · rintro ⟨parts, rfl, each⟩ c hc
    obtain ⟨part, hp, hc⟩ := List.mem_flatten.mp hc
    obtain ⟨d, hd, rfl⟩ := (h part).mp (each part hp)
    rwa [List.mem_singleton.mp hc]
  · intro each
    refine ⟨text.map fun c => [c], (List.flatMap_singleton' text).symm.trans List.flatMap_def, fun part hp => ?_⟩
    obtain ⟨c, hc, rfl⟩ := List.mem_map.mp hp
    exact (h [c]).mpr ⟨c, each c hc, rfl⟩

theorem MatchesOne.mem_mul {kind : Char → Bool} {l : Language Char} (h : MatchesOne kind l) (l' : Language Char)
    {text : List Char} : text ∈ l * l' ↔ ∃ c rest, kind c = true ∧ rest ∈ l' ∧ text = c :: rest := by
  rw [Language.mem_mul]
  constructor
  · rintro ⟨first, hf, rest, hr, rfl⟩
    obtain ⟨c, hc, rfl⟩ := (h first).mp hf
    exact ⟨c, rest, hc, hr, rfl⟩
  · rintro ⟨c, rest, hc, hr, rfl⟩
    exact ⟨[c], (h [c]).mpr ⟨c, hc, rfl⟩, rest, hr, rfl⟩

/-- One character of a kind and then any number of another is a word. -/
theorem MatchesOne.mem_word {start inside : Char → Bool} {l l' : Language Char} (h : MatchesOne start l)
    (h' : MatchesOne inside l') {text : List Char} : text ∈ l * l'∗ ↔ IsWord start inside text := by
  rw [h.mem_mul]
  constructor
  · rintro ⟨c, rest, hc, hr, rfl⟩
    exact ⟨hc, h'.mem_kstar.mp hr⟩
  · intro word
    cases text with
    | nil => exact word.elim
    | cons c rest => exact ⟨c, rest, word.1, h'.mem_kstar.mpr word.2, rfl⟩

theorem mem_pattern_iff : name ∈ style.pattern ↔ style.Fits name := by
  cases style with
  | capWords => exact matchesOne_capital.mem_word matchesOne_alphanum
  | mixedCase => exact matchesOne_small.mem_word matchesOne_alphanum
  | underscoreMixedCase =>
    rw [pattern, (matchesOne_self '_').mem_mul]
    constructor
    · rintro ⟨c, rest, hc, hr, rfl⟩
      obtain rfl : c = '_' := by simpa using hc
      exact ⟨rest, rfl, (matchesOne_small.mem_word matchesOne_alphanum).mp hr⟩
    · rintro ⟨rest, rfl, word⟩
      exact ⟨'_', rest, rfl, (matchesOne_small.mem_word matchesOne_alphanum).mpr word, rfl⟩
  | upperCase =>
    exact matchesOne_capital.mem_word ((matchesOne_capital.add matchesOne_digit).add (matchesOne_self '_'))

/-! ### The newline at the end -/

/-- Beside the names of a style, those with a newline behind them are admitted. -/
theorem admits_iff_exists : style.admits name = true ↔ ∃ body, style.Fits body ∧ (name = body ∨ name = body ++ ['\n']) := by
  rw [admits_iff]
  constructor
  · intro fits
    refine ⟨dropFinalNewline name, fits, ?_⟩
    rw [dropFinalNewline]
    split
    · rename_i last
      obtain ⟨body, rfl⟩ := List.getLast?_eq_some_iff.mp last
      exact Or.inr (by rw [List.dropLast_concat])
    · exact Or.inl rfl
  · rintro ⟨body, fits, rfl | rfl⟩
    · rwa [dropFinalNewline_of_notMem fits.newline_notMem]
    · rwa [dropFinalNewline, if_pos List.getLast?_concat, List.dropLast_concat]

theorem dropFinalNewline_cons {c : Char} (hc : c ≠ '\n') (rest : List Char) :
    dropFinalNewline (c :: rest) = c :: dropFinalNewline rest := by
  cases rest with
  | nil => simp [dropFinalNewline, hc]
  | cons d rest =>
    rw [dropFinalNewline, dropFinalNewline, List.getLast?_cons_cons, List.dropLast_cons_cons]
    split <;> rfl

theorem mem_dropFinalNewline_iff {c : Char} (hc : c ≠ '\n') : c ∈ dropFinalNewline name ↔ c ∈ name := by
  rw [dropFinalNewline]
  split
  · rename_i last
    obtain ⟨body, rfl⟩ := List.getLast?_eq_some_iff.mp last
    simp [hc]
  · rfl

/-! ### Names of two styles -/

/-- The kind of character that names of a style start with. -/
def StartsWith : NameStyle → Char → Prop
  | .capWords, c | .upperCase, c => c.isUpper = true
  | .mixedCase, c => c.isLower = true
  | .underscoreMixedCase, c => c = '_'

theorem Fits.exists_head (h : style.Fits name) : ∃ c rest, name = c :: rest ∧ style.StartsWith c := by
  cases style with
  | underscoreMixedCase =>
    obtain ⟨rest, rfl, -⟩ := h
    exact ⟨'_', rest, rfl, rfl⟩
  | _ =>
    cases name with
    | nil => exact h.elim
    | cons c rest => exact ⟨c, rest, rfl, h.1⟩

/-- Apart from the style of constants, the first character tells the style. -/
theorem StartsWith.unique {style' : NameStyle} {c : Char} (h : style.StartsWith c) (h' : style'.StartsWith c)
    (other : style ≠ .upperCase) (other' : style' ≠ .upperCase) : style = style' := by
  have notBoth {c : Char} (small : c.isLower = true) (capital : c.isUpper = true) : False := by
    exact absurd (Char.le_trans (Text.isLower_iff.mp small).1 (Text.isUpper_iff.mp capital).2) (by decide)
  cases style <;> cases style' <;> first | rfl | exact absurd rfl other | exact absurd rfl other' | skip
  · exact (notBoth h' h).elim
  · obtain rfl : c = '_' := h'
    cases h
  · exact (notBoth h h').elim
  · obtain rfl : c = '_' := h'
    cases h
  · obtain rfl : c = '_' := h
    cases h'
  · obtain rfl : c = '_' := h
    cases h'

theorem eq_of_admits {style' : NameStyle} (h : style.admits name = true) (h' : style'.admits name = true)
    (other : style ≠ .upperCase) (other' : style' ≠ .upperCase) : style = style' := by
  obtain ⟨c, rest, same, start⟩ := (admits_iff.mp h).exists_head
  obtain ⟨c', rest', same', start'⟩ := (admits_iff.mp h').exists_head
  obtain ⟨rfl, -⟩ := List.cons.inj (same.symm.trans same')
  exact start.unique start' other other'

/-- Names of constants without an underscore are names of contracts too. -/
theorem capWords_and_upperCase_iff :
    capWords.Fits name ∧ upperCase.Fits name ↔ upperCase.Fits name ∧ '_' ∉ name := by
  constructor
  · rintro ⟨cap, upper⟩
    exact ⟨upper, IsWord.notMem (by decide) (by decide) cap⟩
  · rintro ⟨upper, none⟩
    refine ⟨?_, upper⟩
    cases name with
    | nil => exact upper
    | cons c rest =>
      refine ⟨upper.1, fun d hd => ?_⟩
      have kind := upper.2 d hd
      have noUnderscore : d ≠ '_' := fun e => none (e ▸ List.mem_cons_of_mem _ hd)
      simp only [Bool.or_eq_true, decide_eq_true_eq, noUnderscore, or_false] at kind
      rcases kind with capital | digit
      · exact Bool.or_eq_true_iff.mpr (Or.inl (Bool.or_eq_true_iff.mpr (Or.inl capital)))
      · exact Bool.or_eq_true_iff.mpr (Or.inr digit)

theorem underscoreMixedCase_fits_cons : underscoreMixedCase.Fits ('_' :: name) ↔ mixedCase.Fits name := by
  simp [Fits]

end NameStyle

open NameStyle Declaration

/-! ### Names of functions -/

section

variable {rules : NamingRules} {found : Nat × FunctionSpan}

theorem Check.admits_of_outer (on : rules.functions = true) (outer : isInner (visibility found.2.tail) = false)
    (clean : functionName rules found = []) : mixedCase.admits found.2.name = true := by
  rw [functionName, outer, on] at clean
  simpa using clean

theorem Check.admits_of_inner (on : rules.privateInternalFunctions = true)
    (inner : isInner (visibility found.2.tail) = true) (clean : functionName rules found = []) :
    underscoreMixedCase.admits found.2.name = true := by
  rw [functionName, inner, on] at clean
  simpa using clean

end

/-- A text is admitted by a style if it matches the pattern of the style, or does so without the newline at its end. The
    styles of contracts, of outer functions and of inner functions have no name in common, so an outer and an inner
    function of one name are never both named rightly. What is a name of a contract and of a constant is a name of a
    constant without underscore, and names of inner functions are those of outer ones behind an underscore. -/
theorem styles_by_pattern (name : List Char) :
    (∀ style : NameStyle,
      style.admits name = true ↔ ∃ body ∈ style.pattern, name = body ∨ name = body ++ ['\n']) ∧
    ¬(capWords.admits name = true ∧ mixedCase.admits name = true) ∧
    ¬(capWords.admits name = true ∧ underscoreMixedCase.admits name = true) ∧
    ¬(mixedCase.admits name = true ∧ underscoreMixedCase.admits name = true) ∧
    (∀ (rules : NamingRules) (outer inner : Nat × FunctionSpan), rules.functions = true →
      rules.privateInternalFunctions = true → outer.2.name = name → inner.2.name = name →
      Check.isInner (visibility outer.2.tail) = false → Check.isInner (visibility inner.2.tail) = true →
      Check.functionName rules outer ≠ [] ∨ Check.functionName rules inner ≠ []) ∧
    (capWords.admits name = true ∧ upperCase.admits name = true ↔ upperCase.admits name = true ∧ '_' ∉ name) ∧
    (mixedCase.admits name = true ↔ underscoreMixedCase.admits ('_' :: name) = true) := by
  have apart {a b : NameStyle} (different : a ≠ b) (other : a ≠ .upperCase) (other' : b ≠ .upperCase) :
      ¬(a.admits name = true ∧ b.admits name = true) := by
    rintro ⟨one, two⟩
    exact different (eq_of_admits one two other other')
  refine ⟨fun style => ?_, apart (by decide) (by decide) (by decide), apart (by decide) (by decide) (by decide),
    apart (by decide) (by decide) (by decide), ?_, ?_, ?_⟩
  · simp only [mem_pattern_iff]
    exact admits_iff_exists
  · intro rules outer inner common own sameOuter sameInner isOuter isInner
    by_contra! clean
    have mixed := Check.admits_of_outer common isOuter clean.1
    have underscore := Check.admits_of_inner own isInner clean.2
    rw [sameOuter] at mixed
    rw [sameInner] at underscore
    exact apart (by decide) (by decide) (by decide) ⟨mixed, underscore⟩
  · rw [admits_iff, admits_iff, capWords_and_upperCase_iff, mem_dropFinalNewline_iff (by decide)]
  · rw [admits_iff, admits_iff, dropFinalNewline_cons (by decide), underscoreMixedCase_fits_cons]

/-- A function that is named rightly as long as it is public. -/
theorem styles_by_pattern_made_private :
    let outer : Nat × FunctionSpan := (1, ⟨[' '], "mint".toList, [], [], [], [' '], "public".toList, [' ']⟩)
    let inner : Nat × FunctionSpan := (2, ⟨[' '], "mint".toList, [], [], [], [' '], "private view".toList, [' ']⟩)
    let rules : NamingRules := { functions := true, privateInternalFunctions := true }
    Check.isInner (visibility outer.2.tail) = false ∧ Check.isInner (visibility inner.2.tail) = true ∧
      Check.functionName rules outer = [] ∧
      (Check.functionName rules outer ≠ [] ∨ Check.functionName rules inner ≠ []) := by
  intro outer inner rules
  have isOuter : Check.isInner (visibility outer.2.tail) = false := by decide +kernel
  have isInner : Check.isInner (visibility inner.2.tail) = true := by decide +kernel
  obtain ⟨-, -, -, -, policies, -⟩ := styles_by_pattern "mint".toList
  exact ⟨isOuter, isInner, by decide +kernel, policies rules outer inner rfl rfl rfl rfl isOuter isInner⟩

end SolidityLint

import Mathlib.Data.List.Forall2
import Mathlib.Data.List.ReduceOption
import SolidityLint.Declaration.Function
import SolidityLint.Proofs.Declaration.Pieces
import SolidityLint.Proofs.Text.Joined
import SolidityLint.Proofs.Text.Leftmost

/-! The names of arguments. Each fragment between commas gives the first identifier right behind white space that is the
    last word of its fragment, brackets of an array aside, and gives nothing if that names where the argument is stored.
    White space at the ends of a fragment is taken off first, so it makes no difference. -/

namespace SolidityLint.Declaration

open Text

/-! ### Names in a fragment -/

/-- Nothing follows, or the bracket of an array, white space aside. -/
def EndsArgument (rest : List Char) : Prop :=
  ∃ gap behind, rest = gap ++ behind ∧ Blanks gap ∧ (behind = [] ∨ behind.head? = some '[')

/-- At an offset stands a character of white space, and right behind it a name that goes as far as an identifier can and
    ends the argument. -/
def ArgumentAt (fragment : List Char) (p : Nat) (name : List Char) : Prop :=
  ∃ c rest, fragment.drop p = c :: (name ++ rest) ∧ isBlank c = true ∧ IsIdentifier name ∧
    Stops isIdentifierChar rest ∧ EndsArgument rest

/-- What a fragment gives to the names of the arguments. -/
inductive Contributes (fragment : List Char) : Option (List Char) → Prop
  | name {name : List Char} (h : First (ArgumentAt (trim fragment)) (some name)) (hn : name ∉ dataLocations) :
      Contributes fragment (some name)
  | location {name : List Char} (h : First (ArgumentAt (trim fragment)) (some name)) (hn : name ∈ dataLocations) :
      Contributes fragment none
  | nothing (h : First (ArgumentAt (trim fragment)) none) : Contributes fragment none

theorem endsArgument_iff {rest : List Char} : endsArgument rest = true ↔ EndsArgument rest := by
  unfold endsArgument
  constructor
  · intro h
    refine ⟨rest.takeWhile isBlank, trimStart rest, List.takeWhile_append_dropWhile.symm,
      fun c hc => List.mem_takeWhile_imp hc, ?_⟩
    split at h
    · rename_i nothing
      exact Or.inl nothing
    · rename_i c behind front
      rw [front, of_decide_eq_true h]
      exact Or.inr rfl
  · rintro ⟨gap, behind, rfl, blanks, ends⟩
    have stops : Stops isBlank behind := by
      intro c hc
      rcases ends with rfl | bracket
      · cases hc
      · obtain rfl := Option.some.inj (bracket.symm.trans hc)
        decide
    rw [trimStart, dropWhile_of_stops blanks stops]
    rcases ends with rfl | bracket
    · rfl
    · obtain ⟨more, rfl⟩ := List.head?_eq_some_iff.mp bracket
      rfl

theorem argumentAt_zero_iff {c : Char} {rest name : List Char} :
    ArgumentAt (c :: rest) 0 name ↔
      ∃ after, (if isBlank c then identifier? rest else none) = some (name, after) ∧ endsArgument after = true := by
  simp only [endsArgument_iff, ite_eq_iff, identifier?_eq_some_iff]
  constructor
  · rintro ⟨_, after, text, blank, named, stops, ends⟩
    obtain ⟨rfl, rfl⟩ := List.cons.inj text
    exact ⟨after, Or.inl ⟨blank, rfl, named, stops⟩, ends⟩
  · rintro ⟨after, ⟨blank, rfl, named, stops⟩ | ⟨-, none⟩, ends⟩
    · exact ⟨c, after, rfl, blank, named, stops, ends⟩
    · cases none

theorem first_lastWord? (fragment : List Char) : First (ArgumentAt fragment) (lastWord? fragment) := by
  induction fragment with
  | nil =>
    refine .nowhere fun q name there => ?_
    obtain ⟨c, rest, text, -⟩ := there
    rw [List.drop_nil] at text
    cases text
  | cons c rest ih =>
    have later (nothing : ∀ name, ¬ArgumentAt (c :: rest) 0 name) :
        First (ArgumentAt (c :: rest)) (lastWord? rest) := First.succ ih nothing
    rw [lastWord?_cons]
    split
    · rename_i name after word
      split
      · rename_i ends
        exact .zero (argumentAt_zero_iff.mpr ⟨after, word, ends⟩)
      · rename_i goesOn
        refine later fun other there => goesOn ?_
        obtain ⟨after', word', ends⟩ := argumentAt_zero_iff.mp there
        obtain ⟨-, rfl⟩ := Prod.mk.inj (Option.some.inj (word.symm.trans word'))
        exact ends
    · rename_i none
      refine later fun other there => ?_
      obtain ⟨after', word', -⟩ := argumentAt_zero_iff.mp there
      rw [none] at word'
      cases word'

theorem ArgumentAt.unique {fragment one other : List Char} {p : Nat} (h : ArgumentAt fragment p one)
    (h' : ArgumentAt fragment p other) : one = other := by
  obtain ⟨c, rest, text, -, named, stops, -⟩ := h
  obtain ⟨c', rest', text', -, named', stops', -⟩ := h'
  obtain ⟨-, same⟩ := List.cons.inj (text.symm.trans text')
  have read := identifier?_eq_some_iff.mpr ⟨same, named', stops'⟩
  rw [identifier?_eq_some_iff.mpr ⟨rfl, named, stops⟩] at read
  exact (Prod.mk.inj (Option.some.inj read)).1

/-- A fragment contributes one thing, the name that is read from it or nothing. -/
theorem contributes_iff {fragment : List Char} {given : Option (List Char)} :
    Contributes fragment given ↔ argumentName? fragment = given := by
  have first := first_lastWord? (trim fragment)
  rw [argumentName?]
  constructor
  · intro h
    have read {found : Option (List Char)} (h : First (ArgumentAt (trim fragment)) found) :
        lastWord? (trim fragment) = found := first.unique h fun p one other => ArgumentAt.unique
    cases h with
    | name h hn => simp [read h, Option.filter, hn]
    | location h hn => simp [read h, Option.filter, hn]
    | nothing h => simp [read h]
  · rintro rfl
    cases read : lastWord? (trim fragment) with
    | none => exact .nothing (read ▸ first)
    | some name =>
      rw [read] at first
      by_cases hn : name ∈ dataLocations
      · simpa [Option.filter, hn] using Contributes.location first hn
      · simpa [Option.filter, hn] using Contributes.name first hn

/-! ### White space -/

theorem argumentName?_append {gap gap' : List Char} (h : Blanks gap) (h' : Blanks gap') (fragment : List Char) :
    argumentName? (gap ++ fragment ++ gap') = argumentName? fragment := by
  rw [argumentName?, trim_append h h', argumentName?]

/-- A name stands behind white space inside its fragment, so a single word is none. -/
theorem contributes_none_of_word {word gap gap' : List Char} (hw : ∀ c ∈ word, isBlank c = false) (h : Blanks gap)
    (h' : Blanks gap') : Contributes (gap ++ word ++ gap') none := by
  refine .nothing (.nowhere fun p name there => ?_)
  rw [trim_append h h'] at there
  obtain ⟨c, rest, text, blank, -⟩ := there
  have inside : c ∈ trim word := List.mem_of_mem_drop (text ▸ List.mem_cons_self)
  rw [hw c (trim_subset word inside)] at blank
  cases blank

theorem argumentNames_append (before after : List Char) :
    argumentNames (before ++ ',' :: after) = argumentNames before ++ argumentNames after := by
  rw [argumentNames, splitOn_append, List.filterMap_append]
  rfl

theorem argumentNames_of_notMem {fragment : List Char} (h : ',' ∉ fragment) :
    argumentNames fragment = (argumentName? fragment).toList := by
  rw [argumentNames, splitOn_of_notMem h]
  cases given : argumentName? fragment <;> simp [given]

/-- White space around the arguments makes no difference. -/
theorem argumentNames_blanks {gap gap' : List Char} (h : Blanks gap) (h' : Blanks gap') (arguments : List Char) :
    argumentNames (gap ++ arguments ++ gap') = argumentNames arguments := by
  have comma {gap : List Char} (h : Blanks gap) : ',' ∉ gap := fun hm => absurd (h ',' hm) (by decide)
  have single {fragment gap gap' : List Char} (hf : ',' ∉ fragment) (h : Blanks gap) (h' : Blanks gap') :
      argumentNames (gap ++ fragment ++ gap') = argumentNames fragment := by
    have whole : ',' ∉ gap ++ fragment ++ gap' := by simp [hf, comma h, comma h']
    rw [argumentNames_of_notMem whole, argumentNames_of_notMem hf, argumentName?_append h h']
  -- The first fragment takes the white space in front of the arguments, and the last one that behind them.
  have pieces (fragments : List (List Char)) (hf : ∀ fragment ∈ fragments, ',' ∉ fragment) :
      ∀ {gap : List Char}, Blanks gap →
        argumentNames (gap ++ joinWith ',' fragments ++ gap') = argumentNames (joinWith ',' fragments) := by
    induction fragments with
    | nil => exact fun h => single List.not_mem_nil h h'
    | cons fragment rest ih =>
      obtain ⟨own, others⟩ := List.forall_mem_cons.mp hf
      intro gap h
      cases rest with
      | nil => exact single own h h'
      | cons next more =>
        have front := single own h blanks_nil
        have behind := ih others blanks_nil
        rw [List.append_nil] at front
        rw [List.nil_append] at behind
        rw [joinWith_cons_cons, ← List.append_assoc, List.append_assoc, List.cons_append, argumentNames_append,
          argumentNames_append, front, behind]
  rw [← joinWith_splitOn ',' arguments]
  exact pieces _ (fun fragment hf => separator_notMem_of_mem_splitOn hf) h

/-! ### All fragments -/

/-- The names of the arguments are what the fragments between commas give, each of them one name or none. A single word
    gives none, and white space around the commas or at the ends makes no difference. -/
theorem argumentNames_exact (arguments : List Char) :
    (∃ fragments : List (List Char), fragments ≠ [] ∧ (∀ fragment ∈ fragments, ',' ∉ fragment) ∧
      joinWith ',' fragments = arguments ∧
      ∃ given, (∀ others, List.Forall₂ Contributes fragments others ↔ others = given) ∧
        argumentNames arguments = given.reduceOption) ∧
    (∀ gap word gap', Blanks gap → (∀ c ∈ word, isBlank c = false) → Blanks gap' →
      Contributes (gap ++ word ++ gap') none) ∧
    (∀ gap gap', Blanks gap → Blanks gap' → argumentNames (gap ++ arguments ++ gap') = argumentNames arguments) ∧
    ∀ before gap gap' after, Blanks gap → Blanks gap' →
      argumentNames (before ++ gap ++ ',' :: (gap' ++ after)) = argumentNames (before ++ ',' :: after) := by
  refine ⟨⟨splitOn ',' arguments, splitOn_ne_nil _ _, fun fragment hf => separator_notMem_of_mem_splitOn hf,
    joinWith_splitOn ',' arguments, (splitOn ',' arguments).map argumentName?, fun others => ?_, ?_⟩,
    fun gap word gap' h hw h' => contributes_none_of_word hw h h', fun gap gap' h h' => argumentNames_blanks h h' _, ?_⟩
  · have given : Contributes = fun fragment given => argumentName? fragment = given :=
      funext fun fragment => funext fun given => propext contributes_iff
    rw [given, ← List.forall₂_map_left_iff, List.forall₂_eq_eq_eq]
    exact eq_comm
  · rw [argumentNames, List.reduceOption, List.filterMap_map]
    rfl
  · intro before gap gap' after h h'
    have front := argumentNames_blanks blanks_nil h before
    have behind := argumentNames_blanks h' blanks_nil after
    rw [List.nil_append] at front
    rw [List.append_nil] at behind
    rw [argumentNames_append, argumentNames_append, front, behind]

/-- A word for where an argument is stored hides the name behind it if a bracket follows, and a bracket may follow the
    name itself; a word that starts with a digit is no name. -/
theorem argumentNames_exact_locations :
    let arguments := "uint a, bytes memory _b, uint storage [2] c ,uint d [ ] e,uint 1f, uint".toList
    argumentNames arguments = ["a".toList, "_b".toList, "d".toList] ∧
    (∃ fragments : List (List Char), fragments ≠ [] ∧ (∀ fragment ∈ fragments, ',' ∉ fragment) ∧
      joinWith ',' fragments = arguments ∧
      ∃ given, (∀ others, List.Forall₂ Contributes fragments others ↔ others = given) ∧
        argumentNames arguments = given.reduceOption) ∧
    Contributes " uint".toList none ∧
    argumentNames ("\t".toList ++ arguments ++ " ".toList) = argumentNames arguments ∧
    argumentNames ("uint a".toList ++ "\n".toList ++ ',' :: (" ".toList ++ "int b".toList)) =
      argumentNames ("uint a".toList ++ ',' :: "int b".toList) := by
  intro arguments
  obtain ⟨fragments, words, ends, commas⟩ := argumentNames_exact arguments
  have tab : Blanks "\t".toList := by simp [Blanks, isBlank]
  have newline : Blanks "\n".toList := by simp [Blanks, isBlank]
  have space : Blanks " ".toList := by simp [Blanks, isBlank]
  have word : ∀ c ∈ "uint".toList, isBlank c = false := by simp [isBlank]
  exact ⟨by decide +kernel, fragments, words " ".toList "uint".toList [] space word blanks_nil,
    ends "\t".toList " ".toList tab space, commas "uint a".toList "\n".toList " ".toList "int b".toList newline space⟩

end SolidityLint.Declaration

import Mathlib.Data.List.TakeDrop
import Mathlib.Data.List.TakeWhile
import SolidityLint.Declaration.Identifier
import SolidityLint.Text.Blank
import SolidityLint.Text.Split

/-! The pieces of declarations. A run of white space, an identifier or a word is read off the front of a text as far as
    it goes, so what is read and what follows it tell the text, and a piece that is followed by what ends it is read
    back. -/

namespace SolidityLint.Declaration

open Text

/-! ### Runs -/

/-- Nothing follows, or something else than what is looked for. -/
def Stops (p : Char → Bool) (rest : List Char) : Prop :=
  ∀ c ∈ rest.head?, p c = false

theorem stops_cons {p : Char → Bool} {c : Char} (h : p c = false) (rest : List Char) : Stops p (c :: rest) := by
  rintro d ⟨⟩
  exact h

theorem Stops.of_append {p : Char → Bool} {run rest : List Char} (h : Stops p (run ++ rest)) : Stops p run := by
  intro c hc
  refine h c ?_
  rw [List.head?_append, hc]
  rfl

theorem stops_dropWhile (p : Char → Bool) (cs : List Char) : Stops p (cs.dropWhile p) := by
  intro c hc
  have first := List.head?_dropWhile_not p cs
  rw [Option.mem_def.mp hc] at first
  exact first

theorem dropWhile_of_stops {p : Char → Bool} {run rest : List Char} (all : ∀ c ∈ run, p c = true)
    (stops : Stops p rest) : (run ++ rest).dropWhile p = rest := by
  rw [List.dropWhile_append_of_pos all]
  cases rest with
  | nil => rfl
  | cons c rest => exact List.dropWhile_cons_of_neg (by simp [stops c rfl])

/-- A run is read as far as it goes, and no further. -/
theorem span_eq_iff {p : Char → Bool} {cs run rest : List Char} :
    cs.span p = (run, rest) ↔ cs = run ++ rest ∧ (∀ c ∈ run, p c = true) ∧ Stops p rest := by
  rw [List.span_eq_takeWhile_dropWhile, Prod.mk.injEq]
  constructor
  · rintro ⟨rfl, rfl⟩
    exact ⟨List.takeWhile_append_dropWhile.symm, fun c hc => List.mem_takeWhile_imp hc, stops_dropWhile p cs⟩
  · rintro ⟨rfl, all, stops⟩
    have dropped := dropWhile_of_stops all stops
    have cut := List.takeWhile_append_dropWhile (p := p) (l := run ++ rest)
    rw [dropped] at cut
    exact ⟨List.append_cancel_right cut, dropped⟩

theorem afterWord?_eq_some_iff {α : Type} [DecidableEq α] {word cs rest : List α} :
    afterWord? word cs = some rest ↔ cs = word ++ rest := by
  unfold afterWord?
  constructor
  · intro h
    split at h
    · rename_i front
      obtain ⟨behind, rfl⟩ := List.isPrefixOf_iff_prefix.mp front
      rw [List.drop_left] at h
      rw [Option.some.inj h]
    · cases h
  · rintro rfl
    rw [if_pos (List.isPrefixOf_iff_prefix.mpr (List.prefix_append ..)), List.drop_left]

theorem isSome_afterWord?_iff {α : Type} [DecidableEq α] {word cs : List α} :
    (afterWord? word cs).isSome = true ↔ ∃ rest, cs = word ++ rest := by
  simp only [Option.isSome_iff_exists, afterWord?_eq_some_iff]

/-! ### White space -/

/-- A run of white space. -/
def Blanks (cs : List Char) : Prop :=
  ∀ c ∈ cs, isBlank c = true

theorem blanks_nil : Blanks [] :=
  fun _ hc => nomatch hc

theorem trimEnd_append {cs gap : List Char} (ends : ∀ c ∈ cs.getLast?, isBlank c = false) (blanks : Blanks gap) :
    trimEnd (cs ++ gap) = cs := by
  have inside : ∀ c ∈ gap.reverse, isBlank c = true := fun c hc => blanks c (List.mem_reverse.mp hc)
  have stops : Stops isBlank cs.reverse := by
    intro c hc
    rw [List.head?_reverse] at hc
    exact ends c hc
  rw [trimEnd, List.reverse_append, dropWhile_of_stops inside stops, List.reverse_reverse]

theorem exists_trimEnd_append (cs : List Char) :
    ∃ gap, cs = trimEnd cs ++ gap ∧ Blanks gap ∧ ∀ c ∈ (trimEnd cs).getLast?, isBlank c = false := by
  refine ⟨(cs.reverse.takeWhile isBlank).reverse, ?_, fun c hc => ?_, fun c hc => ?_⟩
  · rw [trimEnd, ← List.reverse_append, List.takeWhile_append_dropWhile, List.reverse_reverse]
  · exact List.mem_takeWhile_imp (List.mem_reverse.mp hc)
  · rw [trimEnd, ← List.head?_reverse, List.reverse_reverse] at hc
    exact stops_dropWhile isBlank _ c hc

theorem trim_subset (cs : List Char) : trim cs ⊆ cs := by
  intro c hc
  rw [trim, trimEnd, List.mem_reverse] at hc
  have inside := List.mem_reverse.mp ((List.dropWhile_sublist _).subset hc)
  exact (List.dropWhile_sublist _).subset inside

/-- A word without white space stands in a text just if it stands behind the white space that the text starts with. -/
theorem infix_dropWhile_iff {word : List Char} (h : ∀ c ∈ word, isBlank c = false) (cs : List Char) :
    word <:+: cs.dropWhile isBlank ↔ word <:+: cs := by
  refine ⟨fun inside => inside.trans (List.dropWhile_suffix _).isInfix, fun inside => ?_⟩
  induction cs with
  | nil => exact inside
  | cons c rest ih =>
    by_cases blank : isBlank c = true
    · rw [List.dropWhile_cons_of_pos blank]
      rcases List.infix_cons_iff.mp inside with front | inside
      · cases word with
        | nil => exact List.nil_infix
        | cons d more =>
          obtain ⟨rfl, -⟩ := List.cons_prefix_cons.mp front
          rw [h d List.mem_cons_self] at blank
          cases blank
      · exact ih inside
    · rwa [List.dropWhile_cons_of_neg blank]

theorem infix_trim_iff {word : List Char} (h : ∀ c ∈ word, isBlank c = false) (cs : List Char) :
    word <:+: trim cs ↔ word <:+: cs := by
  have backwards : ∀ c ∈ word.reverse, isBlank c = false := fun c hc => h c (List.mem_reverse.mp hc)
  rw [trim, trimEnd, ← List.reverse_infix, List.reverse_reverse, infix_dropWhile_iff backwards, List.reverse_infix,
    trimStart, infix_dropWhile_iff h]

theorem trim_append {gap cs gap' : List Char} (h : Blanks gap) (h' : Blanks gap') :
    trim (gap ++ cs ++ gap') = trim cs := by
  have behind (cs : List Char) : trimEnd (cs ++ gap') = trimEnd cs := by
    rw [trimEnd, List.reverse_append, List.dropWhile_append_of_pos fun c hc => h' c (List.mem_reverse.mp hc)]
    rfl
  rw [trim, trim, trimStart, List.append_assoc, List.dropWhile_append_of_pos h, List.dropWhile_append]
  split
  · rename_i nothing
    have none : trimStart cs = [] := List.isEmpty_iff.mp nothing
    rw [none, ← List.append_nil gap', List.dropWhile_append_of_pos h']
    rfl
  · exact behind _

/-! ### Identifiers -/

/-- A letter of ASCII or an underscore, then letters, digits and underscores. -/
def IsIdentifier (name : List Char) : Prop :=
  ∃ first more, name = first :: more ∧ isIdentifierStart first = true ∧ ∀ c ∈ more, isIdentifierChar c = true

theorem isIdentifierChar_of_start {c : Char} (h : isIdentifierStart c = true) : isIdentifierChar c = true := by
  simp only [isIdentifierStart, Bool.or_eq_true] at h
  simp only [isIdentifierChar, Char.isAlphanum, Bool.or_eq_true]
  exact h.imp_left Or.inl

theorem isBlank_eq_false_of_isIdentifierChar {c : Char} (h : isIdentifierChar c = true) : isBlank c = false := by
  have upper (h : c.isUpper = true) : 65 ≤ c.toNat ∧ c.toNat ≤ 90 := of_decide_eq_true h
  have lower (h : c.isLower = true) : 97 ≤ c.toNat ∧ c.toNat ≤ 122 :=
    (Bool.and_eq_true_iff.mp h).imp of_decide_eq_true of_decide_eq_true
  have digit (h : c.isDigit = true) : 48 ≤ c.toNat ∧ c.toNat ≤ 57 :=
    (Bool.and_eq_true_iff.mp h).imp of_decide_eq_true of_decide_eq_true
  have code : (65 ≤ c.toNat ∧ c.toNat ≤ 90) ∨ (97 ≤ c.toNat ∧ c.toNat ≤ 122) ∨ (48 ≤ c.toNat ∧ c.toNat ≤ 57) ∨
      c.toNat = 95 := by
    rcases Bool.or_eq_true_iff.mp h with alphanumeric | underscore
    · rcases Bool.or_eq_true_iff.mp alphanumeric with alpha | numeric
      · exact (Bool.or_eq_true_iff.mp alpha).imp upper fun h => Or.inl (lower h)
      · exact Or.inr (Or.inr (Or.inl (digit numeric)))
    · rw [of_decide_eq_true underscore]
      decide
  simp only [isBlank, Bool.or_eq_false_iff, Bool.and_eq_false_iff, decide_eq_false_iff_not]
  omega

theorem IsIdentifier.isIdentifierChar {name : List Char} (h : IsIdentifier name) :
    ∀ c ∈ name, isIdentifierChar c = true := by
  obtain ⟨first, more, rfl, start, inside⟩ := h
  exact List.forall_mem_cons.mpr ⟨isIdentifierChar_of_start start, inside⟩

theorem IsIdentifier.ne_nil {name : List Char} (h : IsIdentifier name) : name ≠ [] := by
  obtain ⟨first, more, rfl, -, -⟩ := h
  exact List.cons_ne_nil first more

theorem IsIdentifier.newline_notMem {name : List Char} (h : IsIdentifier name) : '\n' ∉ name :=
  fun hm => absurd (h.isIdentifierChar '\n' hm) (by decide)

theorem IsIdentifier.stops_isBlank {name : List Char} (h : IsIdentifier name) (rest : List Char) :
    Stops isBlank (name ++ rest) := by
  obtain ⟨first, more, rfl, start, -⟩ := h
  exact stops_cons (isBlank_eq_false_of_isIdentifierChar (isIdentifierChar_of_start start)) _

/-- White space ends an identifier. -/
theorem Blanks.stops_isIdentifierChar {gap : List Char} (h : Blanks gap) (parted : gap ≠ []) (rest : List Char) :
    Stops isIdentifierChar (gap ++ rest) := by
  cases gap with
  | nil => exact absurd rfl parted
  | cons c more =>
    refine stops_cons (Bool.eq_false_iff.mpr fun inside => ?_) _
    have blank := h c List.mem_cons_self
    simp [isBlank_eq_false_of_isIdentifierChar inside] at blank

theorem identifier?_eq_some_iff {cs name rest : List Char} :
    identifier? cs = some (name, rest) ↔ cs = name ++ rest ∧ IsIdentifier name ∧ Stops isIdentifierChar rest := by
  cases cs with
  | nil =>
    refine ⟨fun h => (nomatch h), ?_⟩
    rintro ⟨same, ⟨first, more, rfl, -, -⟩, -⟩
    cases same
  | cons c cs =>
    simp only [identifier?]
    constructor
    · intro h
      split at h
      · rename_i start
        obtain ⟨text, inside, stops⟩ := span_eq_iff.mp (Option.some.inj h)
        refine ⟨text, ?_, stops⟩
        cases name with
        | nil =>
          rw [List.nil_append] at text
          have unread := stops c (by rw [← text]; rfl)
          rw [isIdentifierChar_of_start start] at unread
          cases unread
        | cons first more =>
          obtain ⟨rfl, -⟩ := List.cons.inj text
          exact ⟨c, more, rfl, start, (List.forall_mem_cons.mp inside).2⟩
      · cases h
    · rintro ⟨text, named, stops⟩
      have inside := named.isIdentifierChar
      obtain ⟨first, more, rfl, start, -⟩ := named
      obtain ⟨rfl, rfl⟩ := List.cons.inj text
      rw [if_pos start, span_eq_iff.mpr ⟨text, inside, stops⟩]

end SolidityLint.Declaration

import Mathlib.Data.List.Basic
import Mathlib.Data.List.Nodup
import Mathlib.Data.Option.Basic
import SolidityLint.Declaration.Import
import SolidityLint.Proofs.Declaration.Pieces
import SolidityLint.Proofs.Text.Leftmost
import SolidityLint.Proofs.Text.Lines

/-! Import statements by their pieces. A from-clause can be cut in one way only, and so can a named import, which ends
    in one. The path of an import is that of the first from-clause that stands anywhere in it. In front of the clause
    that ends a named import there are no quotes except between the braces, and a from-clause needs quotes, so without
    quotes there it is the first one. -/

namespace SolidityLint.Declaration

open Text

/-! ### From-clauses -/

/-- The pieces of a from-clause. Each quote may be single or double. -/
structure FromClause where
  gap : List Char
  opening : Char
  path : List Char
  closing : Char

theorem isQuote_eq_false_of_isBlank {c : Char} (h : isBlank c = true) : isQuote c = false := by
  refine Bool.eq_false_iff.mpr fun quote => ?_
  rcases Bool.or_eq_true_iff.mp quote with quote | quote
  · rw [of_decide_eq_true quote] at h
    exact absurd h (by decide)
  · rw [of_decide_eq_true quote] at h
    exact absurd h (by decide)

theorem stops_isBlank_of_isQuote {c : Char} (h : isQuote c = true) (rest : List Char) : Stops isBlank (c :: rest) := by
  refine stops_cons (Bool.eq_false_iff.mpr fun blank => ?_) rest
  rw [isQuote_eq_false_of_isBlank blank] at h
  cases h

theorem quotedText?_eq_some_iff {cs inside rest : List Char} :
    quotedText? cs = some (inside, rest) ↔ ∃ opening closing, cs = opening :: (inside ++ closing :: rest) ∧
      isQuote opening = true ∧ inside ≠ [] ∧ (∀ c ∈ inside, isQuote c = false) ∧ isQuote closing = true := by
  constructor
  · intro h
    cases cs with
    | nil => cases h
    | cons c cs =>
      obtain ⟨run, after, cut⟩ : ∃ run after, cs.span (!isQuote ·) = (run, after) := ⟨_, _, rfl⟩
      obtain ⟨rfl, all, stops⟩ := span_eq_iff.mp cut
      simp only [quotedText?, cut] at h
      split at h
      · rename_i opening
        split at h
        · cases h
        · rename_i some
          cases after with
          | nil => cases h
          | cons d after =>
            obtain ⟨rfl, rfl⟩ := Prod.mk.inj (Option.some.inj h)
            refine ⟨c, d, rfl, opening, by simpa using some, fun e he => by simpa using all e he, ?_⟩
            simpa using stops d rfl
      · cases h
  · rintro ⟨opening, closing, rfl, ho, some, plain, hc⟩
    have cut : (inside ++ closing :: rest).span (!isQuote ·) = (inside, closing :: rest) :=
      span_eq_iff.mpr ⟨rfl, fun c hm => by simp [plain c hm], stops_cons (by simp [hc]) rest⟩
    have some : inside.isEmpty = false := by simpa using some
    simp only [quotedText?, ho, cut, some, if_true, Bool.false_eq_true, if_false]

namespace FromClause

def chars (clause : FromClause) : List Char :=
  "from".toList ++ (clause.gap ++ clause.opening :: (clause.path ++ [clause.closing]))

/-- The pieces are what they are called. -/
structure WellFormed (clause : FromClause) : Prop where
  gap : Blanks clause.gap
  parted : clause.gap ≠ []
  opening : isQuote clause.opening = true
  path_ne_nil : clause.path ≠ []
  path : ∀ c ∈ clause.path, isQuote c = false
  closing : isQuote clause.closing = true

theorem chars_append (clause : FromClause) (rest : List Char) :
    clause.chars ++ rest =
      "from".toList ++ (clause.gap ++ clause.opening :: (clause.path ++ clause.closing :: rest)) := by
  show "from".toList ++ (clause.gap ++ clause.opening :: (clause.path ++ [clause.closing])) ++ rest = _
  simp only [List.append_assoc, List.cons_append, List.nil_append]

theorem WellFormed.span_gap {clause : FromClause} (h : clause.WellFormed) (rest : List Char) :
    (clause.gap ++ clause.opening :: rest).span isBlank = (clause.gap, clause.opening :: rest) :=
  span_eq_iff.mpr ⟨rfl, h.gap, stops_isBlank_of_isQuote h.opening rest⟩

theorem WellFormed.quotedText? {clause : FromClause} (h : clause.WellFormed) (rest : List Char) :
    quotedText? (clause.opening :: (clause.path ++ clause.closing :: rest)) = some (clause.path, rest) :=
  quotedText?_eq_some_iff.mpr ⟨_, _, rfl, h.opening, h.path_ne_nil, h.path, h.closing⟩

theorem fromClause?_eq_some_iff {cs path rest : List Char} :
    fromClause? cs = some (path, rest) ↔
      ∃ clause : FromClause, clause.WellFormed ∧ clause.path = path ∧ cs = clause.chars ++ rest := by
  simp only [fromClause?, Option.bind_eq_bind, Option.bind_eq_some_iff, afterWord?_eq_some_iff, Option.guard_eq_some',
    exists_const]
  constructor
  · rintro ⟨after, rfl, parted, quoted⟩
    obtain ⟨gap, behind, cut⟩ : ∃ gap behind, after.span isBlank = (gap, behind) := ⟨_, _, rfl⟩
    obtain ⟨rfl, blank, -⟩ := span_eq_iff.mp cut
    simp only [cut] at parted quoted
    obtain ⟨opening, closing, rfl, ho, some, inside, hc⟩ := quotedText?_eq_some_iff.mp quoted
    refine ⟨⟨gap, opening, path, closing⟩, ⟨blank, by simpa using parted, ho, some, inside, hc⟩, rfl, ?_⟩
    rw [chars_append]
  · rintro ⟨clause, formed, rfl, rfl⟩
    have parted : clause.gap.isEmpty = false := by simpa using formed.parted
    refine ⟨_, clause.chars_append rest, ?_⟩
    simp only [formed.span_gap, parted, formed.quotedText?, Bool.not_false, and_self]

/-- A from-clause with these pieces begins at an offset of a text. -/
def SitsAt (cs : List Char) (p : Nat) (clause : FromClause) : Prop :=
  clause.WellFormed ∧ ∃ rest, cs.drop p = clause.chars ++ rest

theorem sitsAt_zero_iff {cs path : List Char} :
    (∃ clause, SitsAt cs 0 clause ∧ clause.path = path) ↔ ∃ rest, fromClause? cs = some (path, rest) := by
  simp only [fromClause?_eq_some_iff, SitsAt, List.drop_zero]
  constructor
  · rintro ⟨clause, ⟨formed, rest, text⟩, same⟩
    exact ⟨rest, clause, formed, same, text⟩
  · rintro ⟨rest, clause, formed, same, text⟩
    exact ⟨clause, ⟨formed, rest, text⟩, same⟩

/-- A clause can be cut into its pieces in one way. -/
theorem chars_unique {clause other : FromClause} {rest rest' : List Char} (h : clause.WellFormed)
    (h' : other.WellFormed) (same : clause.chars ++ rest = other.chars ++ rest') : clause = other ∧ rest = rest' := by
  rw [chars_append, chars_append] at same
  have gaps := h'.span_gap (other.path ++ other.closing :: rest')
  rw [← List.append_cancel_left same, h.span_gap] at gaps
  obtain ⟨gap, quoted⟩ := Prod.mk.inj gaps
  obtain ⟨opening, inside⟩ := List.cons.inj quoted
  have plain {clause : FromClause} (h : clause.WellFormed) (rest : List Char) :
      (clause.path ++ clause.closing :: rest).span (!isQuote ·) = (clause.path, clause.closing :: rest) :=
    span_eq_iff.mpr ⟨rfl, fun c hm => by simp [h.path c hm], stops_cons (by simp [h.closing]) rest⟩
  have paths := plain h' rest'
  rw [← inside, plain h] at paths
  obtain ⟨path, behind⟩ := Prod.mk.inj paths
  obtain ⟨closing, after⟩ := List.cons.inj behind
  cases clause
  cases other
  cases gap
  cases opening
  cases path
  cases closing
  exact ⟨rfl, after⟩

theorem SitsAt.unique {cs : List Char} {p : Nat} {clause other : FromClause} (h : SitsAt cs p clause)
    (h' : SitsAt cs p other) : clause = other := by
  obtain ⟨formed, rest, text⟩ := h
  obtain ⟨formed', rest', text'⟩ := h'
  exact (chars_unique formed formed' (text.symm.trans text')).1

/-- The path of an import is that of the first from-clause in it. -/
theorem exists_first_importPath? (cs : List Char) :
    ∃ first, First (SitsAt cs) first ∧ importPath? cs = first.map (·.path) := by
  induction cs with
  | nil =>
    refine ⟨none, .nowhere fun q clause there => ?_, rfl⟩
    obtain ⟨-, rest, text⟩ := there
    rw [List.drop_nil] at text
    cases text
  | cons c cs ih =>
    rw [importPath?]
    cases here : fromClause? (c :: cs) with
    | some found =>
      obtain ⟨clause, there, same⟩ := sitsAt_zero_iff.mpr ⟨found.2, here⟩
      exact ⟨some clause, .zero there, by simp [same]⟩
    | none =>
      obtain ⟨first, there, same⟩ := ih
      refine ⟨first, .succ there fun clause there => ?_, same⟩
      obtain ⟨rest, found⟩ := sitsAt_zero_iff.mp ⟨clause, there, rfl⟩
      rw [here] at found
      cases found

theorem importPath?_eq_map {cs : List Char} {first : Option FromClause} (h : First (SitsAt cs) first) :
    importPath? cs = first.map (·.path) := by
  obtain ⟨other, there, same⟩ := exists_first_importPath? cs
  rw [same, there.unique h fun _ _ _ => SitsAt.unique]

theorem isSome_importPath? {cs : List Char} {p : Nat} {clause : FromClause} (h : SitsAt cs p clause) :
    (importPath? cs).isSome = true := by
  obtain ⟨first, there, same⟩ := exists_first_importPath? cs
  cases there with
  | nowhere never => exact absurd h (never p clause)
  | here => rw [same, Option.map_some, Option.isSome_some]

/-- The first quote behind a text without quotes is the one that opens the clause. -/
theorem WellFormed.span_quote {clause : FromClause} (h : clause.WellFormed) {front : List Char}
    (plain : ∀ c ∈ front, isQuote c = false) (rest : List Char) :
    (front ++ (clause.chars ++ rest)).span (!isQuote ·) =
      (front ++ ("from".toList ++ clause.gap), clause.opening :: (clause.path ++ clause.closing :: rest)) := by
  have word : ∀ c ∈ "from".toList, isQuote c = false := by simp [isQuote]
  have inFront : ∀ c ∈ front ++ ("from".toList ++ clause.gap), isQuote c = false :=
    List.forall_mem_append.mpr
      ⟨plain, List.forall_mem_append.mpr ⟨word, fun c hc => isQuote_eq_false_of_isBlank (h.gap c hc)⟩⟩
  refine span_eq_iff.mpr ⟨?_, fun c hc => by simp [inFront c hc], stops_cons (by simp [h.opening]) _⟩
  simp only [chars_append, List.append_assoc]

theorem WellFormed.trimEnd_gap {clause : FromClause} (h : clause.WellFormed) (front : List Char) :
    trimEnd (front ++ ("from".toList ++ clause.gap)) = front ++ "from".toList := by
  rw [← List.append_assoc]
  refine trimEnd_append (fun c hc => ?_) h.gap
  have last : (front ++ "from".toList).getLast? = some 'm' := by simp
  rw [last] at hc
  cases hc
  decide

/-- A clause behind a text without quotes is the first one. The quote that opens any clause is the first quote behind
    its offset, so an earlier clause would have the same one, and going back from it over white space and the word leads
    to the same offset. -/
theorem first_append {front : List Char} {clause : FromClause} (plain : ∀ c ∈ front, isQuote c = false)
    (h : clause.WellFormed) (rest : List Char) :
    First (SitsAt (front ++ (clause.chars ++ rest))) (some clause) := by
  have there : SitsAt (front ++ (clause.chars ++ rest)) front.length clause := ⟨h, rest, List.drop_left⟩
  refine .here there fun q early other there' => ?_
  obtain ⟨formed, rest', text⟩ := there'
  rw [List.drop_append_of_le_length (Nat.le_of_lt early)] at text
  have plain' : ∀ c ∈ front.drop q, isQuote c = false := fun c hc => plain c (List.mem_of_mem_drop hc)
  have nothing : ∀ c ∈ [], isQuote c = false := nofun
  have cut := h.span_quote plain' rest
  have cut' := formed.span_quote nothing rest'
  rw [List.nil_append, ← text, cut] at cut'
  have same := congrArg trimEnd (Prod.mk.inj cut').1
  rw [h.trimEnd_gap, formed.trimEnd_gap] at same
  have lengths := congrArg List.length same
  rw [List.length_append, List.length_append, List.length_drop, List.length_nil] at lengths
  omega

end FromClause

/-! ### Named imports -/

/-- The pieces of a named import: what stands between the braces, a from-clause, and a semicolon or nothing. -/
structure NamedImportSpan where
  gapNames : List Char
  names : List Char
  gapFrom : List Char
  clause : FromClause
  ending : List Char

namespace NamedImportSpan

def chars (span : NamedImportSpan) : List Char :=
  "import".toList ++ (span.gapNames ++ '\x7b' :: (span.names ++ '\x7d' :: (span.gapFrom ++ (span.clause.chars ++
    span.ending))))

/-- The pieces are what they are called. -/
structure WellFormed (span : NamedImportSpan) : Prop where
  gapNames : Blanks span.gapNames
  gapNames_ne_nil : span.gapNames ≠ []
  names_ne_nil : span.names ≠ []
  names : '\x7d' ∉ span.names
  gapFrom : Blanks span.gapFrom
  gapFrom_ne_nil : span.gapFrom ≠ []
  clause : span.clause.WellFormed
  ending : span.ending = [] ∨ span.ending = [';']

variable {span other : NamedImportSpan}

theorem WellFormed.span_gapNames (h : span.WellFormed) (rest : List Char) :
    (span.gapNames ++ '\x7b' :: rest).span isBlank = (span.gapNames, '\x7b' :: rest) :=
  span_eq_iff.mpr ⟨rfl, h.gapNames, stops_cons (by decide) rest⟩

theorem WellFormed.span_names (h : span.WellFormed) (rest : List Char) :
    (span.names ++ '\x7d' :: rest).span (· ≠ '\x7d') = (span.names, '\x7d' :: rest) := by
  refine span_eq_iff.mpr ⟨rfl, fun c hc => ?_, stops_cons (by decide) rest⟩
  have other : c ≠ '\x7d' := fun same => h.names (same ▸ hc)
  simp [other]

theorem WellFormed.span_gapFrom (h : span.WellFormed) (clause : FromClause) (rest : List Char) :
    (span.gapFrom ++ (clause.chars ++ rest)).span isBlank = (span.gapFrom, clause.chars ++ rest) :=
  span_eq_iff.mpr ⟨rfl, h.gapFrom, stops_cons (by decide) _⟩

theorem read?_sound {cs : List Char} {found : NamedImport} (h : NamedImport.read? cs = some found) :
    ∃ span : NamedImportSpan, span.WellFormed ∧ cs = span.chars ∧ found = ⟨span.names, span.clause.path⟩ := by
  simp only [NamedImport.read?, Option.bind_eq_bind, Option.bind_eq_some_iff, afterWord?_eq_some_iff, Prod.exists,
    Option.guard_eq_some', exists_const, Option.pure_def, FromClause.fromClause?_eq_some_iff] at h
  obtain ⟨afterWord, rfl, parted, afterOpen, opened, some, afterClose, closed, parted', path, ending,
    ⟨clause, formed, rfl, clausal⟩, ended, made⟩ := h
  obtain ⟨gapNames, rest, atNames⟩ : ∃ run rest, afterWord.span isBlank = (run, rest) := ⟨_, _, rfl⟩
  obtain ⟨rfl, blank, -⟩ := span_eq_iff.mp atNames
  simp only [atNames] at parted opened
  obtain ⟨names, rest', atClose⟩ : ∃ run rest, afterOpen.span (· ≠ '\x7d') = (run, rest) := ⟨_, _, rfl⟩
  obtain ⟨rfl, inside, -⟩ := span_eq_iff.mp atClose
  simp only [atClose] at some closed made
  obtain ⟨gapFrom, rest'', atFrom⟩ : ∃ run rest, afterClose.span isBlank = (run, rest) := ⟨_, _, rfl⟩
  obtain ⟨rfl, blank', -⟩ := span_eq_iff.mp atFrom
  simp only [atFrom] at parted' clausal
  subst opened closed clausal
  refine ⟨⟨gapNames, names, gapFrom, clause, ending⟩,
    ⟨blank, by simpa using parted, by simpa using some, fun hm => ?_, blank', by simpa using parted', formed, ended⟩,
    rfl, (Option.some.inj made).symm⟩
  simpa using inside _ hm

theorem read?_complete (h : span.WellFormed) :
    NamedImport.read? span.chars = some ⟨span.names, span.clause.path⟩ := by
  have text : span.chars = "import".toList ++ (span.gapNames ++ '\x7b' :: (span.names ++ '\x7d' :: (span.gapFrom ++
      (span.clause.chars ++ span.ending)))) := rfl
  have word (rest : List Char) : afterWord? "import".toList ("import".toList ++ rest) = some rest :=
    afterWord?_eq_some_iff.mpr rfl
  have brace (c : Char) (rest : List Char) : afterWord? [c] (c :: rest) = some rest := afterWord?_eq_some_iff.mpr rfl
  have clause : fromClause? (span.clause.chars ++ span.ending) = some (span.clause.path, span.ending) :=
    FromClause.fromClause?_eq_some_iff.mpr ⟨span.clause, h.clause, rfl, rfl⟩
  have parted : span.gapNames.isEmpty = false := by simpa using h.gapNames_ne_nil
  have named : span.names.isEmpty = false := by simpa using h.names_ne_nil
  have parted' : span.gapFrom.isEmpty = false := by simpa using h.gapFrom_ne_nil
  simp only [NamedImport.read?, text, word, brace, h.span_gapNames, h.span_names, h.span_gapFrom, clause, parted, named,
    parted', h.ending, Option.bind_eq_bind, Option.bind_some, Bool.not_false, guard_true, Option.pure_def]

theorem isSome_read?_iff {cs : List Char} :
    (NamedImport.read? cs).isSome = true ↔ ∃ span : NamedImportSpan, span.WellFormed ∧ cs = span.chars := by
  rw [Option.isSome_iff_exists]
  constructor
  · rintro ⟨found, h⟩
    obtain ⟨span, formed, text, -⟩ := read?_sound h
    exact ⟨span, formed, text⟩
  · rintro ⟨span, formed, rfl⟩
    exact ⟨_, read?_complete formed⟩

/-- A named import can be cut into its pieces in one way. -/
theorem chars_injective (h : span.WellFormed) (h' : other.WellFormed) (same : span.chars = other.chars) :
    span = other := by
  have gaps := h'.span_gapNames (other.names ++ '\x7d' :: (other.gapFrom ++ (other.clause.chars ++ other.ending)))
  rw [← List.append_cancel_left same, h.span_gapNames] at gaps
  obtain ⟨gapNames, opened⟩ := Prod.mk.inj gaps
  obtain ⟨names, closed⟩ := cut_unique h.names h'.names (List.cons.inj opened).2
  have gaps' := h'.span_gapFrom other.clause other.ending
  rw [← closed, h.span_gapFrom] at gaps'
  obtain ⟨gapFrom, clausal⟩ := Prod.mk.inj gaps'
  obtain ⟨clause, ending⟩ := FromClause.chars_unique h.clause h'.clause clausal
  cases span
  cases other
  cases gapNames
  cases names
  cases gapFrom
  cases clause
  cases ending
  rfl

theorem chars_eq_append (span : NamedImportSpan) :
    span.chars = "import".toList ++ (span.gapNames ++ '\x7b' :: (span.names ++ '\x7d' :: span.gapFrom)) ++
      (span.clause.chars ++ span.ending) := by
  simp only [List.append_assoc, List.cons_append]
  rfl

theorem WellFormed.isSome_importPath? (h : span.WellFormed) : (importPath? span.chars).isSome = true := by
  rw [chars_eq_append]
  exact FromClause.isSome_importPath? ⟨h.clause, span.ending, List.drop_left⟩

/-- Without quotes between the braces the path is that of the clause at the end. -/
theorem WellFormed.importPath?_eq (h : span.WellFormed) (plain : ∀ c ∈ span.names, isQuote c = false) :
    importPath? span.chars = some span.clause.path := by
  have word : ∀ c ∈ "import".toList, isQuote c = false := by simp [isQuote]
  have blank {gap : List Char} (h : Blanks gap) : ∀ c ∈ gap, isQuote c = false :=
    fun c hc => isQuote_eq_false_of_isBlank (h c hc)
  have front : ∀ c ∈ "import".toList ++ (span.gapNames ++ '\x7b' :: (span.names ++ '\x7d' :: span.gapFrom)),
      isQuote c = false := by
    simp only [List.forall_mem_append, List.forall_mem_cons]
    exact ⟨word, blank h.gapNames, by decide, plain, by decide, blank h.gapFrom⟩
  rw [chars_eq_append]
  exact FromClause.importPath?_eq_map (FromClause.first_append front h.clause span.ending)

end NamedImportSpan

/-! ### The statements of lines -/

theorem importAt?_eq_some_iff {numbered : List Char × Nat} {statement : ImportLine} :
    importAt? numbered = some statement ↔
      isImport (trim numbered.1) = true ∧ statement = ⟨trim numbered.1, numbered.2⟩ := by
  simp only [importAt?]
  cases isImport (trim numbered.1) with
  | false => simp
  | true => simp [eq_comm]

theorem pairwise_lt_line_imports (lines : List (List Char)) :
    (imports lines).Pairwise fun a b => a.line < b.line := by
  refine List.pairwise_filterMap.mpr ((pairwise_number lines).imp fun {a b} lt x hx y hy => ?_)
  rw [(importAt?_eq_some_iff.mp hx).2, (importAt?_eq_some_iff.mp hy).2]
  exact lt

/-- A line holds one statement at most. -/
theorem eq_of_line_eq {lines : List (List Char)} {one two : ImportLine} (h : one ∈ imports lines)
    (h' : two ∈ imports lines) (same : one.line = two.line) : one = two := by
  have nodup : ((imports lines).map (·.line)).Nodup :=
    List.pairwise_map.mpr ((pairwise_lt_line_imports lines).imp Nat.ne_of_lt)
  exact List.inj_on_of_nodup_map nodup h h' same

/-- The statement with another number for its line. -/
def ImportLine.renumber (number : Nat → Nat) (statement : ImportLine) : ImportLine :=
  { statement with line := number statement.line }

/-- The statements of lines that stand behind others. -/
theorem imports_append (one two : List (List Char)) :
    imports (one ++ two) = imports one ++ (imports two).map (·.renumber (· + one.length)) := by
  rw [imports, numbered_append, List.filterMap_append, List.filterMap_map, imports, imports, List.map_filterMap]
  refine congrArg _ (List.filterMap_congr fun numbered _ => ?_)
  simp only [Function.comp_apply, importAt?, Prod.map_fst, Prod.map_snd, id]
  cases isImport (trim numbered.1) with
  | false => rfl
  | true => rfl

theorem line_bounds {lines : List (List Char)} {statement : ImportLine} (h : statement ∈ imports lines) :
    1 ≤ statement.line ∧ statement.line ≤ lines.length := by
  obtain ⟨numbered, hn, hs⟩ := List.mem_filterMap.mp h
  have own : statement.line = numbered.2 := congrArg ImportLine.line (importAt?_eq_some_iff.mp hs).2
  rw [own]
  exact number_bounds hn

/-- The number of a line when so many lines are put in behind another one. -/
def numberBelow (place count number : Nat) : Nat :=
  if number ≤ place then number else number + count

theorem imports_insert {extra : List (List Char)} (nothing : imports extra = []) (before after : List (List Char)) :
    imports (before ++ extra ++ after) =
      (imports (before ++ after)).map (·.renumber (numberBelow before.length extra.length)) := by
  have above : (imports before).map (·.renumber (numberBelow before.length extra.length)) = imports before := by
    refine (List.map_congr_left fun statement hs => ?_).trans (List.map_id _)
    simp [ImportLine.renumber, numberBelow, (line_bounds hs).2]
  rw [imports_append, imports_append, imports_append, nothing, List.map_nil, List.append_nil, List.map_append, above,
    List.map_map]
  refine congrArg _ (List.map_congr_left fun statement hs => ?_)
  have below : ¬statement.line + before.length ≤ before.length := by
    have low := (line_bounds hs).1
    omega
  simp [ImportLine.renumber, numberBelow, below, Nat.add_assoc]

end SolidityLint.Declaration

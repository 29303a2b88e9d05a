import Mathlib.Data.Option.Basic
import SolidityLint.Declaration.Function
import SolidityLint.Proofs.Declaration.Pieces
import SolidityLint.Proofs.Text.Leftmost

/-! Function declarations. A declaration can be cut in one way only, white space in front of its body aside, and the
    reader finds that cut wherever a declaration stands. The declarations of a text are those that a search from its
    front takes, without those of special functions. -/

namespace SolidityLint.Declaration

open Text

namespace FunctionSpan

/-- The pieces are what they are called. -/
structure WellFormed (span : FunctionSpan) : Prop where
  gapName : Blanks span.gapName
  parted : span.gapName ≠ []
  name : IsIdentifier span.name
  gapOpen : Blanks span.gapOpen
  gapArguments : Blanks span.gapArguments
  arguments : ')' ∉ span.arguments
  argumentsStart : Stops isBlank span.arguments
  gapTail : Blanks span.gapTail
  tail : '{' ∉ span.tail
  tailStart : Stops isBlank span.tail
  tailEnd : ∀ c ∈ span.tail.getLast?, isBlank c = false
  gapBody : Blanks span.gapBody

theorem chars_append (span : FunctionSpan) (rest : List Char) :
    span.chars ++ rest = "function".toList ++ (span.gapName ++ (span.name ++ (span.gapOpen ++ (['('] ++
      (span.gapArguments ++ (span.arguments ++ ([')'] ++ (span.gapTail ++ (span.tail ++ span.gapBody ++
        '\x7b' :: rest))))))))) := by
  unfold chars
  generalize "function".toList = keyword
  simp only [List.append_assoc, List.cons_append, List.nil_append]

/-- What is read stands at the front of the text, in pieces that are what they are called. -/
theorem read?_sound {cs : List Char} {span : FunctionSpan} (h : read? cs = some span) :
    span.WellFormed ∧ ∃ rest, cs = span.chars ++ rest := by
  simp only [read?, Option.bind_eq_bind, Option.bind_eq_some_iff, afterWord?_eq_some_iff, Option.pure_def,
    Prod.exists, identifier?_eq_some_iff] at h
  obtain ⟨afterKeyword, rfl, _, parted, name, afterName, ⟨named, isName, -⟩, afterOpen, opened, afterClose, closed, _,
    bodied, made⟩ := h
  obtain ⟨gapName, beforeName, atName⟩ : ∃ run rest, afterKeyword.span isBlank = (run, rest) := ⟨_, _, rfl⟩
  obtain ⟨gapOpen, beforeOpen, atOpen⟩ : ∃ run rest, afterName.span isBlank = (run, rest) := ⟨_, _, rfl⟩
  obtain ⟨gapArguments, beforeArguments, atArguments⟩ : ∃ run rest, afterOpen.span isBlank = (run, rest) :=
    ⟨_, _, rfl⟩
  obtain ⟨arguments, beforeClose, atClose⟩ : ∃ run rest, beforeArguments.span (· ≠ ')') = (run, rest) := ⟨_, _, rfl⟩
  obtain ⟨gapTail, beforeTail, atTail⟩ : ∃ run rest, afterClose.span isBlank = (run, rest) := ⟨_, _, rfl⟩
  obtain ⟨beforeBody, body, atBody⟩ : ∃ run rest, beforeTail.span (· ≠ '\x7b') = (run, rest) := ⟨_, _, rfl⟩
  simp only [atName, atOpen, atArguments, atClose, atTail, atBody] at parted named opened closed bodied made
  obtain ⟨gapBody, cut, gapBodyBlank, tailEnd⟩ := exists_trimEnd_append beforeBody
  obtain ⟨rfl, gapNameBlank, -⟩ := span_eq_iff.mp atName
  obtain ⟨rfl, gapOpenBlank, -⟩ := span_eq_iff.mp atOpen
  obtain ⟨rfl, gapArgumentsBlank, argumentsStart⟩ := span_eq_iff.mp atArguments
  obtain ⟨rfl, argumentsInside, -⟩ := span_eq_iff.mp atClose
  obtain ⟨rfl, gapTailBlank, tailStart⟩ := span_eq_iff.mp atTail
  obtain ⟨rfl, tailInside, brace⟩ := span_eq_iff.mp atBody
  subst named opened closed
  obtain ⟨tail, trimmed⟩ : ∃ tail, trimEnd beforeBody = tail := ⟨_, rfl⟩
  rw [trimmed] at cut tailEnd made
  subst cut
  rw [List.drop_left] at made
  obtain rfl := Option.some.inj made
  obtain ⟨c, rest, rfl⟩ : ∃ c rest, body = c :: rest := by
    cases body with
    | nil => cases bodied
    | cons c rest => exact ⟨c, rest, rfl⟩
  obtain rfl : c = '\x7b' := by simpa using brace c rfl
  have front := chars_append ⟨gapName, name, gapOpen, gapArguments, arguments, gapTail, tail, gapBody⟩ rest
  refine ⟨?_, rest, front.symm⟩
  exact
    { gapName := gapNameBlank
      parted := by
        rintro rfl
        cases parted
      name := isName
      gapOpen := gapOpenBlank
      gapArguments := gapArgumentsBlank
      arguments := fun hm => by simpa using argumentsInside _ hm
      argumentsStart := argumentsStart.of_append
      gapTail := gapTailBlank
      tail := fun hm => by simpa using tailInside _ (List.mem_append_left gapBody hm)
      tailStart := tailStart.of_append.of_append
      tailEnd
      gapBody := gapBodyBlank }

section

variable {span : FunctionSpan} (h : span.WellFormed)

include h

theorem span_gapName (behind : List Char) :
    (span.gapName ++ (span.name ++ behind)).span isBlank = (span.gapName, span.name ++ behind) :=
  span_eq_iff.mpr ⟨rfl, h.gapName, h.name.stops_isBlank behind⟩

theorem identifier?_name (behind : List Char) :
    identifier? (span.name ++ (span.gapOpen ++ (['('] ++ behind))) =
      some (span.name, span.gapOpen ++ (['('] ++ behind)) := by
  refine identifier?_eq_some_iff.mpr ⟨rfl, h.name, ?_⟩
  cases start : span.gapOpen with
  | nil => exact stops_cons (by decide) _
  | cons c more =>
    refine stops_cons (Bool.eq_false_iff.mpr fun inside => ?_) _
    have blank := h.gapOpen c (start ▸ List.mem_cons_self)
    rw [isBlank_eq_false_of_isIdentifierChar inside] at blank
    cases blank

theorem span_gapOpen (behind : List Char) :
    (span.gapOpen ++ (['('] ++ behind)).span isBlank = (span.gapOpen, ['('] ++ behind) :=
  span_eq_iff.mpr ⟨rfl, h.gapOpen, stops_cons (by decide) behind⟩

theorem span_gapArguments (behind : List Char) :
    (span.gapArguments ++ (span.arguments ++ ([')'] ++ behind))).span isBlank =
      (span.gapArguments, span.arguments ++ ([')'] ++ behind)) := by
  refine span_eq_iff.mpr ⟨rfl, h.gapArguments, ?_⟩
  cases start : span.arguments with
  | nil => exact stops_cons (by decide) _
  | cons c more => exact stops_cons (h.argumentsStart c (by rw [start]; rfl)) _

theorem span_arguments (behind : List Char) :
    (span.arguments ++ ([')'] ++ behind)).span (· ≠ ')') = (span.arguments, [')'] ++ behind) := by
  have inside : ∀ c ∈ span.arguments, decide (c ≠ ')') = true := fun c hm =>
    decide_eq_true fun same => h.arguments (same ▸ hm)
  exact span_eq_iff.mpr ⟨rfl, inside, stops_cons rfl behind⟩

theorem span_gapTail (settled : span.tail = [] → span.gapBody = []) (rest : List Char) :
    (span.gapTail ++ (span.tail ++ span.gapBody ++ '\x7b' :: rest)).span isBlank =
      (span.gapTail, span.tail ++ span.gapBody ++ '\x7b' :: rest) := by
  refine span_eq_iff.mpr ⟨rfl, h.gapTail, ?_⟩
  cases start : span.tail with
  | nil =>
    rw [settled start]
    exact stops_cons (by decide) rest
  | cons c more => exact stops_cons (h.tailStart c (by rw [start]; rfl)) _

theorem span_tail (rest : List Char) :
    (span.tail ++ span.gapBody ++ '\x7b' :: rest).span (· ≠ '\x7b') = (span.tail ++ span.gapBody, '\x7b' :: rest) := by
  refine span_eq_iff.mpr ⟨rfl, fun c hm => decide_eq_true fun same => ?_, stops_cons rfl rest⟩
  rcases List.mem_append.mp hm with hm | hm
  · exact h.tail (same ▸ hm)
  · have blank := h.gapBody c hm
    rw [same] at blank
    cases blank

/-- A declaration is read wherever it stands, if white space without a tail is all in front of where that would be. -/
theorem read?_complete (settled : span.tail = [] → span.gapBody = []) (rest : List Char) :
    read? (span.chars ++ rest) = some span := by
  have parted : span.gapName.isEmpty = false := by simpa using h.parted
  have word (word behind : List Char) : afterWord? word (word ++ behind) = some behind := afterWord?_eq_some_iff.mpr rfl
  rw [chars_append, read?]
  simp only [word, span_gapName h, parted, identifier?_name h, span_gapOpen h, span_gapArguments h, span_arguments h,
    span_gapTail h settled, span_tail h, trimEnd_append h.tailEnd h.gapBody, List.drop_left, Option.bind_eq_bind,
    Option.bind_some, Bool.not_false, guard_true, Option.pure_def, List.isEmpty_cons]

end

/-! ### Where a declaration sits -/

/-- The number of characters that a declaration takes up. -/
def width (span : FunctionSpan) : Nat :=
  span.chars.length

/-- A declaration with these pieces begins at an offset of a text. -/
def SitsAt (cs : List Char) (p : Nat) (span : FunctionSpan) : Prop :=
  span.WellFormed ∧ ∃ rest, cs.drop p = span.chars ++ rest

/-- Declarations that tell the same: they differ at most in where they cut the white space without a tail. -/
structure Alike (one other : FunctionSpan) : Prop where
  name : one.name = other.name
  arguments : one.arguments = other.arguments
  tail : one.tail = other.tail
  chars : one.chars = other.chars

theorem WellFormed.exists_settled {span : FunctionSpan} (h : span.WellFormed) :
    ∃ other : FunctionSpan, other.WellFormed ∧ (other.tail = [] → other.gapBody = []) ∧ Alike span other := by
  by_cases none : span.tail = []
  · let settled : FunctionSpan := { span with gapTail := span.gapTail ++ span.gapBody, gapBody := [] }
    have chars : span.chars = settled.chars := by
      unfold FunctionSpan.chars
      generalize "function".toList = keyword
      simp [none, settled]
    have formed : settled.WellFormed :=
      { h with
        gapTail := List.forall_mem_append.mpr ⟨h.gapTail, h.gapBody⟩
        gapBody := fun c hm => nomatch hm }
    exact ⟨settled, formed, fun _ => rfl, rfl, rfl, rfl, chars⟩
  · exact ⟨span, h, fun start => absurd start none, rfl, rfl, rfl, rfl⟩

theorem SitsAt.exists_read? {cs : List Char} {p : Nat} {span : FunctionSpan} (h : SitsAt cs p span) :
    ∃ found, read? (cs.drop p) = some found ∧ Alike span found := by
  obtain ⟨formed, rest, text⟩ := h
  obtain ⟨found, formed', settled, alike⟩ := formed.exists_settled
  refine ⟨found, ?_, alike⟩
  rw [text, alike.chars]
  exact read?_complete formed' settled rest

/-- A declaration at an offset can be cut in one way only. -/
theorem SitsAt.alike {cs : List Char} {p : Nat} {one other : FunctionSpan} (h : SitsAt cs p one)
    (h' : SitsAt cs p other) : Alike one other := by
  obtain ⟨found, read, same⟩ := h.exists_read?
  obtain ⟨found', read', same'⟩ := h'.exists_read?
  obtain rfl := Option.some.inj (read.symm.trans read')
  exact ⟨same.name.trans same'.name.symm, same.arguments.trans same'.arguments.symm, same.tail.trans same'.tail.symm,
    same.chars.trans same'.chars.symm⟩

theorem narrow_read? {cs : List Char} {found : FunctionSpan} (h : read? cs = some found) :
    0 < width found ∧ width found ≤ cs.length := by
  obtain ⟨-, rest, rfl⟩ := read?_sound h
  have inside : '(' ∈ found.chars := List.mem_append_right _ List.mem_cons_self
  rw [width, List.length_append]
  exact ⟨List.length_pos_of_mem inside, Nat.le_add_right ..⟩

end FunctionSpan

open FunctionSpan

/-- The search for declarations takes those that sit at the least offsets from the end of the one before on. -/
theorem exists_leftmost_functions (cs : List Char) :
    ∃ spans, Leftmost (SitsAt cs) width 0 spans ∧
      occurrences (fun _ => read?) width cs = spans.map fun span => (lineCount (cs.take span.1), span.2) := by
  obtain ⟨spans, taken, same⟩ := exists_leftmost_occurrences (fun h => narrow_read? h) cs
  refine ⟨spans, taken.mono (fun p found h => read?_sound h) (fun p found there => ?_), same⟩
  obtain ⟨found, read, -⟩ := there.exists_read?
  exact ⟨found, read⟩

/-- The functions of a text are the declarations that a search from its front takes, without the special ones, each
    with its name, its arguments, its tail and the line that it begins on. A declaration has one name, one list of
    arguments, one tail and one end; what the search takes does not overlap, and a declaration that it does not take
    begins inside one that it takes. -/
theorem functions_exact (cs : List Char) :
    (∀ p one other, SitsAt cs p one → SitsAt cs p other →
      one.name = other.name ∧ one.arguments = other.arguments ∧ one.tail = other.tail ∧
        p + width one = p + width other) ∧
    (∃ spans, Leftmost (SitsAt cs) width 0 spans) ∧
    ∀ spans, Leftmost (SitsAt cs) width 0 spans →
      (functions cs).map (fun found => (found.1, found.2.name, found.2.arguments, found.2.tail)) =
        (spans.filter fun span => !specialFunctions.contains span.2.name).map
          (fun span => (1 + (cs.take span.1).count '\n', span.2.name, span.2.arguments, span.2.tail)) ∧
      spans.Pairwise (fun first second => first.1 + width first.2 ≤ second.1) ∧
      ∀ p other, SitsAt cs p other → ∃ span ∈ spans, span.1 ≤ p ∧ p < span.1 + width span.2 := by
  obtain ⟨taken, leftmost, found⟩ := exists_leftmost_functions cs
  refine ⟨fun p one other h h' => ?_, ⟨taken, leftmost⟩, fun spans h => ⟨?_, h.pairwise, fun p other there => ?_⟩⟩
  · have alike := h.alike h'
    exact ⟨alike.name, alike.arguments, alike.tail, by rw [width, width, alike.chars]⟩
  · let view (span : FunctionSpan) := (span.name, span.arguments, span.tail)
    have agree (p : Nat) (one other : FunctionSpan) (h : SitsAt cs p one) (h' : SitsAt cs p other) :
        view one = view other ∧ width one = width other := by
      have alike := h.alike h'
      simp only [view, width, alike.name, alike.arguments, alike.tail, alike.chars, and_self]
    have same := leftmost.map_eq_map h agree
    have ordinary (spans : List (Nat × FunctionSpan)) :
        (spans.filter fun span => !specialFunctions.contains span.2.name).map
          (fun span => (1 + (cs.take span.1).count '\n', view span.2)) =
        ((spans.map fun span => (span.1, view span.2)).filter fun seen => !specialFunctions.contains seen.2.1).map
          (fun seen => (1 + (cs.take seen.1).count '\n', seen.2)) := by
      rw [List.filter_map, List.map_map]
      rfl
    have lines : (functions cs).map (fun found => (found.1, view found.2)) =
        (taken.filter fun span => !specialFunctions.contains span.2.name).map
          (fun span => (1 + (cs.take span.1).count '\n', view span.2)) := by
      rw [functions]
      change (List.filter _ (occurrences (fun _ => read?) width cs)).map _ = _
      rw [found, List.filter_map, List.map_map]
      refine List.map_congr_left fun span _ => ?_
      simp only [Function.comp_apply, lineCount, Nat.add_comm]
    exact lines.trans ((ordinary taken).trans (same ▸ (ordinary spans).symm))
  · exact h.covers (Nat.zero_le p) there

/-- A declaration without a body takes in the one behind it, which is not found by itself, and a special function takes
    up its text. -/
theorem functions_exact_no_body :
    let cs := "function a( uint x );\nfunction b() \x7b\x7d\nfunction receive()\x7b\x7d function c() view \x7b".toList
    let inner : FunctionSpan := ⟨[' '], ['b'], [], [], [], [' '], [], []⟩
    SitsAt cs 22 inner ∧
      ∃ spans, Leftmost (SitsAt cs) width 0 spans ∧
        (∃ span ∈ spans, span.1 ≤ 22 ∧ 22 < span.1 + width span.2) ∧
        (spans.filter fun span => !specialFunctions.contains span.2.name).map
            (fun span => (1 + (cs.take span.1).count '\n', span.2.name, span.2.arguments, span.2.tail)) =
          [(1, ['a'], "uint x ".toList, ";\nfunction b()".toList), (3, ['c'], [], "view".toList)] := by
  intro cs inner
  have read : read? (cs.drop 22) = some inner := by decide +kernel
  have there : SitsAt cs 22 inner := read?_sound read
  have listed : (functions cs).map (fun found => (found.1, found.2.name, found.2.arguments, found.2.tail)) =
      [(1, ['a'], "uint x ".toList, ";\nfunction b()".toList), (3, ['c'], [], "view".toList)] := by decide +kernel
  obtain ⟨-, ⟨spans, leftmost⟩, exact⟩ := functions_exact cs
  obtain ⟨found, -, covers⟩ := exact spans leftmost
  rw [listed] at found
  exact ⟨there, spans, leftmost, covers 22 inner there, found.symm⟩

end SolidityLint.Declaration

import SolidityLint.Proofs.Declaration.Pieces
import SolidityLint.Proofs.Yaml.Input

/-! Documents without content. A text without a token is passed over line by line: the blanks that a line starts with,
    a comment, and the end of the line. Such a text is null, and so are a word for null and the mark that starts a
    document, if nothing but such a text follows the mark. -/

namespace SolidityLint.Yaml

open Declaration (Stops stops_dropWhile dropWhile_of_stops)

/-- A text without a token: blanks, line ends, and comments, each of which takes the rest of its line. -/
inductive SaysNothing : List Char → Prop
  | nil : SaysNothing []
  | blank {rest : List Char} (others : SaysNothing rest) : SaysNothing (' ' :: rest)
  | lineEnd {c : Char} {rest : List Char} (ends : isBreak c) (others : SaysNothing rest) : SaysNothing (c :: rest)
  | comment {words rest : List Char} (inLine : words.all (!isBreak ·)) (ends : ∀ c ∈ rest.head?, isBreak c)
    (others : SaysNothing rest) : SaysNothing ('#' :: (words ++ rest))

namespace SaysNothing

variable {cs : List Char} {c : Char}

theorem dropWhile_blank (h : SaysNothing cs) : SaysNothing (cs.dropWhile (· = ' ')) := by
  induction h with
  | nil => exact .nil
  | blank _ ih => simpa using ih
  | lineEnd ends others ih =>
    rw [List.dropWhile_cons]
    split
    · exact ih
    · exact .lineEnd ends others
  | comment inLine ends others _ => exact .comment inLine ends others

/-- What follows the end of a line. -/
theorem behind_lineEnd (h : SaysNothing (c :: cs)) (ends : isBreak c) : SaysNothing cs := by
  cases h with
  | blank others | lineEnd _ others => exact others
  | comment => exact absurd ends (by decide)

end SaysNothing

/-! ### Places -/

namespace Cursor

variable {cursor : Cursor} {cs rest : List Char} {c : Char}

/-- A place in front of a text that can be read to its end. -/
def Before (cursor : Cursor) (cs : List Char) : Prop :=
  cursor.rest = cs ∧ cursor.fault? = none

namespace Before

theorem step (h : cursor.Before cs) : cursor.step.Before cs.tail := by
  obtain ⟨rfl, readable⟩ := h
  rw [Cursor.step]
  cases rest : cursor.rest with
  | nil => exact ⟨rest, readable⟩
  | cons c rest =>
    dsimp only
    split <;> exact ⟨rfl, readable⟩

theorem steps (h : cursor.Before cs) (count : Nat) : (cursor.steps count).Before (cs.drop count) := by
  induction count generalizing cursor cs with
  | zero => exact h
  | succ count ih =>
    rw [← List.drop_tail]
    exact ih h.step

theorem advance (h : cursor.Before cs) (count : Nat) :
    ∃ after, cursor.advance count = .ok after ∧ after.Before (cs.drop count) := by
  refine ⟨cursor.steps count, ?_, h.steps count⟩
  rw [Cursor.advance, look, h.1, h.2]
  cases cs.drop count <;> rfl

theorem skipWhile (h : cursor.Before cs) (p : Char → Bool) :
    ∃ after, cursor.skipWhile p = .ok after ∧ after.Before (cs.dropWhile p) := by
  obtain ⟨after, moved, there⟩ := h.advance (cs.takeWhile p).length
  have cut : cs.drop (cs.takeWhile p).length = cs.dropWhile p := by
    have whole := @List.drop_left _ (cs.takeWhile p) (cs.dropWhile p)
    rwa [List.takeWhile_append_dropWhile] at whole
  refine ⟨after, ?_, ?_⟩
  · rw [Cursor.skipWhile, takeWhile, h.1, moved]
    rfl
  · rwa [cut] at there

/-- Behind blanks and a comment, a line without tokens ends, or the text does. -/
theorem skipComment (h : cursor.Before cs) (quiet : SaysNothing cs) (noBlank : Stops (· = ' ') cs) :
    ∃ after rest, cursor.skipComment = .ok after ∧ after.Before rest ∧ SaysNothing rest ∧ rest.length ≤ cs.length ∧
      ∀ c ∈ rest.head?, isBreak c := by
  rw [Cursor.skipComment, head?, h.1]
  cases quiet with
  | nil => exact ⟨cursor, [], if_neg nofun, h, .nil, Nat.le_refl _, nofun⟩
  | blank => exact absurd (noBlank ' ' rfl) (by decide)
  | @lineEnd c rest ends others =>
    refine ⟨cursor, c :: rest, if_neg ?_, h, .lineEnd ends others, Nat.le_refl _, by simpa using ends⟩
    rintro ⟨⟩
    exact absurd ends (by decide)
  | @comment words rest inLine ends others =>
    obtain ⟨after, moved, there⟩ := h.skipWhile fun c => !isBreak c
    rw [← List.cons_append, dropWhile_of_stops (List.forall_mem_cons.mpr ⟨rfl, List.all_eq_true.mp inLine⟩)
      (fun c hc => by simpa using ends c hc)] at there
    exact ⟨after, rest, (if_pos rfl).trans moved, there, others, by simp; omega, ends⟩

theorem lineBreak?_nil (h : cursor.Before []) : cursor.lineBreak? = .ok none := by
  rw [Cursor.lineBreak?, head?, h.1]
  rfl

theorem lineBreak?_cons (h : cursor.Before (c :: rest)) (ends : isBreak c) :
    ∃ d after, cursor.lineBreak? = .ok (some (d, after)) ∧ after.Before rest := by
  obtain ⟨after, moved, there⟩ := h.advance 1
  refine ⟨if c = '\x85' then '\n' else c, after, ?_, there⟩
  rw [Cursor.lineBreak?, head?, h.1, next, moved]
  simp only [List.head?_cons, ends, if_true]
  rfl

end Before

end Cursor

/-! ### Tokens -/

theorem TokenReading.skipToToken_of_saysNothing {fuel : Nat} {r : TokenReading} {cs : List Char}
    (quiet : SaysNothing cs) (h : r.cursor.Before cs) (enough : cs.length < fuel) :
    ∃ cursor keyAllowed, r.skipToToken fuel = .ok { r with cursor, keyAllowed } ∧ cursor.Before [] := by
  induction fuel generalizing r cs with
  | zero => exact absurd enough (Nat.not_lt_zero _)
  | succ fuel ih =>
    -- A step takes the rest of a line with its end, and what follows is without a token as well.
    obtain ⟨_, skipped, there⟩ := h.skipWhile (· = ' ')
    have shorter : (cs.dropWhile (· = ' ')).length ≤ cs.length := List.length_dropWhile_le _ _
    obtain ⟨after, rest, passed, here, quiet, least, ends⟩ :=
      there.skipComment quiet.dropWhile_blank (stops_dropWhile _ cs)
    rw [skipToToken, skipped]
    cases rest with
    | nil =>
      refine ⟨after, r.keyAllowed, ?_, here⟩
      simp only [bind, Except.bind, passed, here.lineBreak?_nil, pure, Except.pure]
    | cons c rest =>
      obtain ⟨_, next, broken, there⟩ := here.lineBreak?_cons (ends c rfl)
      simp only [List.length_cons] at least
      obtain ⟨cursor, keyAllowed, done, ended⟩ :=
        ih (r := { r with cursor := next, keyAllowed := r.keyAllowed || r.inBlock })
          (quiet.behind_lineEnd (ends c rfl)) there (by omega)
      refine ⟨cursor, keyAllowed, ?_, ended⟩
      simp only [bind, Except.bind, passed, broken]
      exact done

section

variable {cursor : Cursor} {keyAllowed : Bool} {given limit : Nat} {waiting : Array Token} {cs : List Char}

theorem TokenReading.readToken_of_saysNothing (quiet : SaysNothing cs) (h : cursor.Before cs)
    (enough : cs.length < limit) :
    ∃ after, readToken { cursor, keyAllowed, given, waiting } limit = .ok after ∧
      after.waiting = waiting.push .streamEnd := by
  obtain ⟨⟨_, _, _, _, _⟩, _, skipped, rfl, rfl⟩ :=
    skipToToken_of_saysNothing (r := { cursor, keyAllowed, given, waiting }) quiet h enough
  rw [readToken, skipped]
  exact ⟨_, rfl, rfl⟩

/-- Outside all collections a text without a token ends the tokens. -/
theorem TokenReading.readAll_of_saysNothing (done : List Token) (fuel : Nat) (quiet : SaysNothing cs)
    (h : cursor.Before cs) (enough : cs.length < limit) :
    readAll done { cursor, keyAllowed, given, waiting } limit (fuel + 1) =
      done.reverse ++ waiting.toList ++ [.streamEnd] := by
  have out : giveOut { cursor, keyAllowed, given, waiting } =
      (waiting.toList, { cursor, keyAllowed, given := given + waiting.size, waiting := #[] }) := by
    simp [giveOut, settled, count]
  obtain ⟨after, read, last⟩ : ∃ after,
      readToken { cursor, keyAllowed, given := given + waiting.size, waiting := #[] } limit = .ok after ∧
        after.waiting = #[.streamEnd] := readToken_of_saysNothing quiet h enough
  rw [readAll, out]
  dsimp only
  rw [read]
  dsimp only
  rw [last]
  simp

end

theorem Token.ofInput_of_saysNothing {cs : List Char} (quiet : SaysNothing cs) :
    Token.ofInput ⟨cs, none⟩ = [.streamEnd] := by
  have start : Cursor.start ⟨cs, none⟩ = .ok ⟨cs, none, 0, 0, 0⟩ := by
    rw [Cursor.start, Cursor.look]
    cases quiet with
    | @lineEnd c rest ends =>
      refine if_neg ?_
      rintro ⟨⟩
      exact absurd ends (by decide)
    | _ => rfl
  rw [Token.ofInput, start]
  exact TokenReading.readAll_of_saysNothing [] _ quiet ⟨rfl, rfl⟩ (by simp)

/-- A byte order mark takes no column and is no token. -/
theorem Token.ofInput_of_byteOrderMark {cs : List Char} (quiet : SaysNothing cs) :
    Token.ofInput ⟨'\uFEFF' :: cs, none⟩ = [.streamEnd] := by
  have start : Cursor.start ⟨'\uFEFF' :: cs, none⟩ = .ok ⟨cs, none, 1, 0, 0⟩ := by
    cases cs <;> rfl
  rw [Token.ofInput, start]
  exact TokenReading.readAll_of_saysNothing [] _ quiet ⟨rfl, rfl⟩ (by simp; omega)

section

variable {rest : List Char}

theorem Cursor.atSeparator_of_mark (apart : isSpaceOrEnd rest.head?) (index line column : Nat) :
    atSeparator ⟨'-' :: '-' :: '-' :: rest, none, index, line, column⟩ = .ok true := by
  cases rest with
  | nil => rfl
  | cons c rest => exact congrArg Except.ok apart

/-- The reading of a text that starts with the mark of a document. -/
def TokenReading.atMark (rest : List Char) : TokenReading :=
  { cursor := ⟨'-' :: '-' :: '-' :: rest, none, 0, 0, 0⟩ }

/-- The reading of the same text when the mark has been read. -/
def TokenReading.behindMark (rest : List Char) : TokenReading :=
  { cursor := ⟨rest, none, 3, 0, 3⟩, keyAllowed := false, waiting := #[.documentStart] }

theorem TokenReading.readToken_atMark (apart : isSpaceOrEnd rest.head?) (fuel : Nat) :
    (atMark rest).readToken (fuel + 1) = .ok (behindMark rest) := by
  have mark : (atMark rest).readDocumentMark (fuel + 1) '-' = .ok (behindMark rest) := by
    cases rest <;> rfl
  have token : (atMark rest).readTokenAt (fuel + 1) '-' = .ok (behindMark rest) := by
    have separator : (atMark rest).atSeparator '-' = .ok true :=
      (if_pos rfl).trans (Cursor.atSeparator_of_mark apart 0 0 0)
    rw [readTokenAt, if_neg nofun, separator]
    exact mark
  exact (congrArg (· >>= dropStaleKeys) token).trans rfl

/-- The mark that starts a document, and no token behind it. -/
theorem Token.ofInput_of_mark (quiet : SaysNothing rest) (apart : isSpaceOrEnd rest.head?) :
    ofInput ⟨'-' :: '-' :: '-' :: rest, none⟩ = [.documentStart, .streamEnd] := by
  have out : (TokenReading.atMark rest).giveOut = ([], TokenReading.atMark rest) := rfl
  change (TokenReading.atMark rest).readAll [] (rest.length + 5) (rest.length + 5) = _
  rw [TokenReading.readAll, out]
  dsimp only
  rw [TokenReading.readToken_atMark apart]
  exact TokenReading.readAll_of_saysNothing [] _ quiet ⟨rfl, rfl⟩ (by omega)

end

theorem mem_of_isNullWord {cs : List Char} (h : Tag.isNullWord cs) :
    cs ∈ [[], ['~'], "null".toList, "Null".toList, "NULL".toList] := by
  simp only [Tag.isNullWord, List.contains_iff_mem, List.mem_cons, List.not_mem_nil, or_false] at h
  rw [← @String.toList_ofList cs]
  rcases h with h | h | h | h | h <;> rw [h] <;> decide

theorem ofPlain_of_isNullWord {cs : List Char} (h : Tag.isNullWord cs) : Tag.ofPlain cs = .null := by
  have plain : ∀ cs ∈ [[], ['~'], "null".toList, "Null".toList, "NULL".toList], Tag.ofPlain cs = .null := by
    decide +kernel
  exact plain cs (mem_of_isNullWord h)

theorem Token.ofInput_of_isNullWord {cs rest : List Char} (h : Tag.isNullWord cs) (visible : cs ≠ [])
    (ends : rest ∈ [[], ['\n']]) : ofInput ⟨cs ++ rest, none⟩ = [.scalar (.ofChars cs) true, .streamEnd] := by
  have read : ∀ rest ∈ [[], ['\n']], ∀ cs ∈ [['~'], "null".toList, "Null".toList, "NULL".toList],
      ofInput ⟨cs ++ rest, none⟩ = [.scalar (.ofChars cs) true, .streamEnd] := by
    decide +kernel
  exact read rest ends cs (List.mem_of_ne_of_mem visible (mem_of_isNullWord h))

/-! ### Documents -/

/-- The text of a document without content: one without a token, which may stand behind a byte order mark or behind the
    mark that starts a document, or a word for null on a line of its own. -/
inductive HasNoContent : List Char → Prop
  | saysNothing {cs : List Char} (quiet : SaysNothing cs) : HasNoContent cs
  | byteOrderMark {cs : List Char} (quiet : SaysNothing cs) : HasNoContent ('\uFEFF' :: cs)
  | word {cs rest : List Char} (null : Tag.isNullWord cs) (ends : rest ∈ [[], ['\n']]) : HasNoContent (cs ++ rest)
  | mark {rest : List Char} (quiet : SaysNothing rest) (apart : isSpaceOrEnd rest.head?) :
    HasNoContent ('-' :: '-' :: '-' :: rest)

section

variable {bytes : List UInt8} {cs : List Char}

/-- A document without tokens has the value null. -/
theorem load_of_no_tokens (input : Input.ofBytes bytes = ⟨cs, none⟩) (read : Token.ofInput ⟨cs, none⟩ = [.streamEnd])
    (purpose : Purpose) : load purpose bytes = .ok .null := by
  rw [load, input, read]
  rfl

/-- A document whose only node is a null has the value null, whatever it is for. -/
theorem load_of_null_node {tokens : List Token} {text : RawText} (input : Input.ofBytes bytes = ⟨cs, none⟩)
    (read : Token.ofInput ⟨cs, none⟩ = tokens)
    (graph : Graph.ofTokens tokens = .ok (some ⟨#[⟨.null, .scalar text⟩], 0, [0]⟩)) (purpose : Purpose) :
    load purpose bytes = .ok .null := by
  rw [load, input, read, graph]
  cases purpose <;> rfl

theorem load_of_hasNoContent (whole : IsShortText bytes cs) (h : HasNoContent (Text.unifyNewlines cs))
    (purpose : Purpose) : load purpose bytes = .ok .null := by
  have input := whole.input
  generalize Text.unifyNewlines cs = text at input h
  cases h with
  | saysNothing quiet => exact load_of_no_tokens input (Token.ofInput_of_saysNothing quiet) purpose
  | byteOrderMark quiet => exact load_of_no_tokens input (Token.ofInput_of_byteOrderMark quiet) purpose
  | mark quiet apart => exact load_of_null_node input (Token.ofInput_of_mark quiet apart) rfl purpose
  | @word word rest null ends =>
    by_cases visible : word = []
    · subst visible
      have quiet : SaysNothing ([] ++ rest) := by
        simp only [List.mem_cons, List.not_mem_nil, or_false] at ends
        rcases ends with rfl | rfl
        · exact .nil
        · exact .lineEnd rfl .nil
      exact load_of_no_tokens input (Token.ofInput_of_saysNothing quiet) purpose
    · have plain : Tag.ofPlain (RawText.ofChars word).chars = .null := by
        rw [RawText.chars_ofChars, ofPlain_of_isNullWord null]
      have graph : Graph.ofTokens [.scalar (.ofChars word) true, .streamEnd] =
          .ok (some ⟨#[⟨.null, .scalar (.ofChars word)⟩], 0, [0]⟩) := by
        rw [← plain]
        rfl
      exact load_of_null_node input (Token.ofInput_of_isNullWord null visible ends) graph purpose

end

end SolidityLint.Yaml

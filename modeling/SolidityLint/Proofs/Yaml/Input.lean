import SolidityLint.Proofs.Text.Newlines
import SolidityLint.Yaml.Document

/-! Short documents and their text. Bytes are read in blocks, and those at the end of a block that only begin a
    character are left over for the next one; so bytes that are refused as a whole are refused when they are read, or
    else when those that are left over turn out to be the last. A document that is shorter than a piece is read to its
    end before its first token is looked for: then nothing else can be wrong with it, or all of its text is its
    input. -/

namespace SolidityLint

namespace Utf8

variable {isLast : Bool} {done cs : List Char} {position : Nat} {bytes begun : List UInt8} {e : DecodeError}

theorem length_le_of_decodePartFrom (h : decodePartFrom isLast done position bytes = .ok (cs, begun)) :
    cs.length ≤ done.length + bytes.length := by
  have kept {done : List Char} {left : List UInt8}
      (h : (.ok (done.reverse, left) : Except DecodeError _) = .ok (cs, begun)) : cs.length = done.length := by
    cases h
    exact List.length_reverse
  fun_induction decodePartFrom isLast done position bytes with
  | case1 done position => exact Nat.le_of_eq (kept h)
  | case2 done position b rest c width here ih =>
    have := ih h
    simp only [List.length_cons, List.length_drop] at this ⊢
    omega
  | case3 | case6 => cases h
  | case4 | case5 => exact Nat.le_add_right_of_le (Nat.le_of_eq (kept h))

/-- What is left over because it only begins a character, or half of a surrogate pair, is refused where nothing
    follows. -/
theorem decodePart_cons_of_fault {b : UInt8} {rest : List UInt8} {reason : Fault} {width : Nat}
    (h : step b rest = .fault reason width) : ∃ e, decodePart true (b :: rest) = .error e := by
  rw [decodePart, decodePartFrom, h]
  cases reason <;> exact ⟨_, rfl⟩

/-- What is refused in one part is refused in two. -/
theorem decodePart_of_refused (refused : decodePartFrom true done position bytes = .error e) :
    (∃ e, decodePartFrom false done position bytes = .error e) ∨
      ∃ cs begun e, decodePartFrom false done position bytes = .ok (cs, begun) ∧ decodePart true begun = .error e := by
  fun_induction decodePartFrom true done position bytes with
  | case1 => cases refused
  | case2 done position b rest c width here ih =>
    rw [decodePartFrom, here]
    exact ih refused
  | case3 done position b rest width here =>
    obtain ⟨e, again⟩ := decodePart_cons_of_fault here
    refine Or.inr ⟨done.reverse, b :: rest, e, ?_, again⟩
    rw [decodePartFrom, here]
    rfl
  | case4 _ _ _ _ _ _ more => exact absurd rfl more
  | case5 _ _ _ _ _ _ _ _ half => cases half
  | case6 done position b rest reason width other here =>
    obtain ⟨e, again⟩ := decodePart_cons_of_fault here
    rw [decodePartFrom, here]
    cases reason with
    | unexpectedEnd => exact absurd rfl other
    | _ =>
      dsimp only
      split
      · exact Or.inr ⟨done.reverse, b :: rest, e, rfl, again⟩
      · exact Or.inl ⟨_, rfl⟩

/-- What is read as the last part is read as any part, with nothing left over. -/
theorem decodePart_of_read (read : decodePartFrom true done position bytes = .ok (cs, begun)) :
    decodePartFrom false done position bytes = .ok (cs, []) := by
  fun_induction decodePartFrom true done position bytes with
  | case1 done =>
    cases read
    rw [decodePartFrom]
  | case2 done position b rest c width here ih =>
    rw [decodePartFrom, here]
    exact ih read
  | case3 | case6 => cases read
  | case4 _ _ _ _ _ _ more => exact absurd rfl more
  | case5 _ _ _ _ _ _ _ _ half => cases half

theorem decodePart_of_decodeStrict (read : decodeStrict bytes = .ok cs) : decodePart false bytes = .ok (cs, []) := by
  rw [decodeStrict] at read
  cases whole : decodePart true bytes with
  | error =>
    rw [whole] at read
    cases read
  | ok parts =>
    rw [whole] at read
    cases read
    exact decodePart_of_read whole

end Utf8

namespace Yaml

open TextReading

variable {r : TextReading} {bytes : List UInt8} {e : Utf8.DecodeError}

theorem readBlock_of_error {isLast : Bool} {block : List UInt8}
    (h : Utf8.decodePart isLast (r.begun ++ block) = .error e) : r.readBlock isLast block = .error e := by
  rw [readBlock, h]
  rfl

theorem readBlock_of_ok {isLast : Bool} {block begun : List UInt8} {cs : List Char} (free : r.holdsReturn = false)
    (h : Utf8.decodePart isLast (r.begun ++ block) = .ok (cs, begun)) :
    ∃ after, r.readBlock isLast block = .ok after ∧ after.begun = begun ∧ after.ready.length ≤ cs.length := by
  rw [readBlock, h]
  refine ⟨_, rfl, rfl, Nat.le_trans (Text.unifies_unifyNewlines _).length_le ?_⟩
  simp only [free, Bool.false_and, Bool.false_eq_true, if_false]
  split
  · exact (List.dropLast_sublist _).length_le
  · exact Nat.le_refl _

/-- What is left over at the end is refused by whoever needs more than is ready. -/
theorem take_of_end {wanted : Nat} (ended : r.bytes = []) (few : r.ready.length < wanted)
    (refused : Utf8.decodePart true r.begun = .error e) : r.take wanted = .error e := by
  have now : (r.ready.take wanted).length ≠ wanted := by
    rw [List.length_take]
    omega
  rw [take]
  simp only [if_neg now]
  rw [if_pos (List.isEmpty_iff.mpr ended), readBlock_of_error (by rwa [List.append_nil])]
  rfl

/-- The bytes of a short document make a block. -/
theorem length_le_blockSizeFor (short : bytes.length < Input.pieceSize) (wanted : Nat) :
    bytes.length ≤ r.blockSizeFor wanted :=
  Nat.le_trans (Nat.le_of_lt (Nat.lt_trans short (by decide))) (Nat.le_max_left blockSize _)

/-- What is refused in a short document is refused when its first piece is taken. -/
theorem take_of_refused (short : bytes.length < Input.pieceSize) (refused : ∃ e, Utf8.decodeStrict bytes = .error e) :
    ∃ e, TextReading.take { bytes } Input.pieceSize = .error e := by
  obtain ⟨e, refused⟩ := refused
  obtain ⟨e, refused⟩ : ∃ e, Utf8.decodePart true bytes = .error e := by
    rw [Utf8.decodeStrict] at refused
    cases whole : Utf8.decodePart true bytes with
    | error e => exact ⟨e, rfl⟩
    | ok read =>
      rw [whole] at refused
      cases refused
  have nonempty : bytes ≠ [] := by
    rintro rfl
    rw [Utf8.decodePart, Utf8.decodePartFrom] at refused
    cases refused
  rw [take]
  simp only [List.take_nil, List.length_nil]
  rw [if_neg (by decide), if_neg (by simpa using nonempty), List.take_of_length_le (length_le_blockSizeFor short _),
    List.drop_of_length_le (length_le_blockSizeFor short _)]
  rcases Utf8.decodePart_of_refused refused with ⟨e, atOnce⟩ | ⟨cs, begun, e, left, later⟩
  · have atOnce : Utf8.decodePart false ([] ++ bytes) = .error e := atOnce
    exact ⟨e, by rw [readBlock_of_error (r := { bytes }) atOnce]; rfl⟩
  · have few : cs.length ≤ 0 + bytes.length := Utf8.length_le_of_decodePartFrom left
    have left : Utf8.decodePart false ([] ++ bytes) = .ok (cs, begun) := left
    obtain ⟨after, read, rfl, ready⟩ := readBlock_of_ok (r := { bytes }) rfl left
    rw [read]
    have ended : TextReading.take { after with bytes := [] } Input.pieceSize = .error e :=
      take_of_end rfl (Nat.lt_of_le_of_lt ready (by omega)) later
    exact ⟨e, (congrArg (· >>= _) ended).trans rfl⟩

/-- A short document that is no text is refused for that. -/
theorem load_of_refused (short : bytes.length < Input.pieceSize) (refused : ∃ e, Utf8.decodeStrict bytes = .error e)
    (purpose : Purpose) : ∃ e, load purpose bytes = .error (.undecodable e) := by
  obtain ⟨e, taken⟩ := take_of_refused short refused
  have input : Input.ofBytes bytes = ⟨[], some (.undecodable e)⟩ := by
    rw [Input.ofBytes, Input.pieces, taken]
  refine ⟨e, ?_⟩
  rw [load, input]
  rfl

/-- At the end, with nothing left over, what is ready is taken, and nothing is left. -/
theorem take_of_ended {wanted : Nat} (ended : r.bytes = []) (whole : r.begun = []) (free : r.holdsReturn = false)
    (few : r.ready.length < wanted) : r.take wanted = .ok (r.ready, { bytes := [] }) := by
  have now : r.ready.take wanted = r.ready := List.take_of_length_le (Nat.le_of_lt few)
  have last : r.readBlock true [] = .ok { bytes := [] } := by
    obtain ⟨_, _, _, ready, _⟩ := r
    subst ended whole free
    rw [readBlock, List.append_nil, Utf8.decodePart, Utf8.decodePartFrom]
    rfl
  rw [take, now]
  simp only [if_neg (Nat.ne_of_lt few)]
  rw [if_pos (List.isEmpty_iff.mpr ended), last]
  rfl

/-- Bytes that are read at once as a text: they are fewer than those of a piece, no return at their end is held back,
    and every character may be there. -/
structure IsShortText (bytes : List UInt8) (cs : List Char) : Prop where
  short : bytes.length < Input.pieceSize
  read : Utf8.decodeStrict bytes = .ok cs
  ends : cs.getLast? ≠ some '\r'
  allowed : (Text.unifyNewlines cs).all Input.isAllowed

namespace IsShortText

variable {cs : List Char}

theorem take (h : IsShortText bytes cs) :
    TextReading.take { bytes } Input.pieceSize = .ok (Text.unifyNewlines cs, { bytes := [] }) := by
  have whole : Utf8.decodePart false bytes = .ok (cs, []) := Utf8.decodePart_of_decodeStrict h.read
  have few : (Text.unifyNewlines cs).length < Input.pieceSize := by
    have fewer := (Text.unifies_unifyNewlines cs).length_le
    have least : cs.length ≤ 0 + bytes.length := Utf8.length_le_of_decodePartFrom whole
    have short := h.short
    omega
  by_cases empty : bytes = []
  · subst empty
    obtain rfl : cs = [] := by
      rw [Utf8.decodePart, Utf8.decodePartFrom] at whole
      cases whole
      rfl
    exact take_of_ended rfl rfl rfl (by decide)
  · obtain ⟨after, made, begun, held, ready⟩ : ∃ after, TextReading.readBlock { bytes } false bytes = .ok after ∧
        after.begun = [] ∧ after.holdsReturn = false ∧ after.ready = Text.unifyNewlines cs := by
      have whole : Utf8.decodePart false ([] ++ bytes) = .ok (cs, []) := whole
      rw [readBlock, whole]
      refine ⟨_, rfl, rfl, ?_, ?_⟩ <;> simp [h.ends]
    rw [TextReading.take]
    simp only [List.take_nil, List.length_nil]
    rw [if_neg (by decide), if_neg (by simpa using empty), List.take_of_length_le (length_le_blockSizeFor h.short _),
      List.drop_of_length_le (length_le_blockSizeFor h.short _), made]
    have rest : TextReading.take { after with bytes := [] } Input.pieceSize =
        .ok (Text.unifyNewlines cs, { bytes := [] }) := by
      rw [← ready] at few ⊢
      exact take_of_ended rfl begun held few
    exact (congrArg (· >>= _) rest).trans rfl

/-- All of the text is the input of the document. -/
theorem input (h : IsShortText bytes cs) : Input.ofBytes bytes = ⟨Text.unifyNewlines cs, none⟩ := by
  have ended (fuel : Nat) : Input.pieces { bytes := [] } (fuel + 1) = ([], none) := by
    rw [Input.pieces, take_of_ended rfl rfl rfl (by decide)]
    rfl
  rw [Input.ofBytes, Input.pieces, h.take]
  dsimp only
  rw [ended]
  cases made : Text.unifyNewlines cs with
  | nil => rfl
  | cons c rest =>
    have allowed := h.allowed
    rw [made] at allowed
    simp only [List.isEmpty_cons, Bool.false_eq_true, if_false]
    rw [Input.ofPieces, if_pos allowed, Input.ofPieces]
    exact congrArg (Input.mk · none) (List.append_nil _)

end IsShortText

theorem load_nil (purpose : Purpose) : load purpose [] = .ok .null := by
  have read : Utf8.decodeStrict [] = .ok [] := by
    rw [Utf8.decodeStrict, Utf8.decodePart, Utf8.decodePartFrom]
    rfl
  rw [load, IsShortText.input ⟨by decide, read, by simp, rfl⟩]
  rfl

end Yaml

end SolidityLint

import SolidityLint.Files.Loading
import SolidityLint.Proofs.Bytes.Replacement
import SolidityLint.Proofs.Files.Following
import SolidityLint.Proofs.Text.Newlines

/-! Texts of files. A file that is there is always read: ill-formed bytes are replaced where they stand, and the lines of
    the text are those of the bytes, since no line end is part of a character or of a faulty part. -/

namespace SolidityLint

namespace Utf8

open Text (lineEnds lineEnds_cons lineEnds_append)

variable {part rest bytes : List UInt8} {cs : List Char}

/-- A byte of ASCII is a character, so it is in no faulty part. -/
theorem Faulty.not_ascii (h : Faulty part rest) : ∀ b ∈ part, 0x80 ≤ b.toNat := by
  intro b hb
  rcases h.begins with ⟨c, here⟩ | single
  · obtain ⟨first, others, spelled, -, tails, ascii | ⟨-, high⟩⟩ := exists_utf8EncodeChar c
    · obtain ⟨-, rfl⟩ := ascii
      have whole : part = String.utf8EncodeChar c := by
        rw [spelled] at here ⊢
        exact here.eq_of_length (Nat.le_antisymm here.length_le (List.length_pos_iff.mpr h.nonempty))
      exact absurd (whole ▸ List.prefix_append part rest) (h.noChar c)
    · have inside : b ∈ first :: others := spelled ▸ here.subset hb
      rcases List.mem_cons.mp inside with rfl | later
      · exact high
      · exact (tails b later).1
  · by_contra ascii
    obtain ⟨only, rfl⟩ := List.length_eq_one_iff.mp single
    obtain rfl := List.mem_singleton.mp hb
    refine h.noChar (Char.ofNat b.toNat) ?_
    rw [utf8EncodeChar_ofNat (Or.inl (by omega)), if_pos (by omega), UInt8.ofNat_toNat]
    exact List.prefix_append ..

theorem Reads.head?_iff (h : Reads bytes cs) {c : Char} (ascii : c.toNat < 0x80) :
    bytes.head? = some (.ofNat c.toNat) ↔ cs.head? = some c := by
  have value : (UInt8.ofNat c.toNat).toNat = c.toNat := UInt8.toNat_ofNat_of_lt' (by omega : c.toNat < 256)
  cases h with
  | nil => simp
  | char d others =>
    obtain ⟨first, more, spelled, -, -, ⟨own, -⟩ | ⟨other, high⟩⟩ := exists_utf8EncodeChar d
    · rw [spelled, List.cons_append, List.head?_cons, List.head?_cons, Option.some_inj, Option.some_inj,
        ← UInt8.toNat_inj, value, own, Char.toNat_inj]
    · rw [spelled, List.cons_append, List.head?_cons, List.head?_cons, Option.some_inj, Option.some_inj,
        ← UInt8.toNat_inj, value, ← Char.toNat_inj]
      omega
  | @fault part rest cs faulty others =>
    obtain ⟨b, more, rfl⟩ := List.exists_cons_of_ne_nil faulty.nonempty
    have high := faulty.not_ascii b List.mem_cons_self
    have other : ('\uFFFD' : Char).toNat = 0xFFFD := rfl
    rw [List.cons_append, List.head?_cons, List.head?_cons, Option.some_inj, Option.some_inj, ← UInt8.toNat_inj, value,
      ← Char.toNat_inj, other]
    omega

theorem no_line_end {b : UInt8} (h : 0x80 ≤ b.toNat) : b ≠ 0x0D ∧ b ≠ 0x0A := by
  constructor
  · rintro rfl
    exact absurd h (by decide)
  · rintro rfl
    exact absurd h (by decide)

/-- The text has the line ends of its bytes. -/
theorem Reads.lineEnds_eq (h : Reads bytes cs) : lineEnds 0x0D 0x0A bytes = lineEnds '\r' '\n' cs := by
  induction h with
  | nil => rfl
  | @char c rest cs others ih =>
    obtain ⟨first, more, spelled, -, tails, ⟨own, rfl⟩ | ⟨other, high⟩⟩ := exists_utf8EncodeChar c
    · have same (sign : Char) (ascii : sign.toNat < 0x80) : first = .ofNat sign.toNat ↔ c = sign := by
        rw [← UInt8.toNat_inj, UInt8.toNat_ofNat_of_lt' (by omega : sign.toNat < 256), own, Char.toNat_inj]
      rw [spelled, List.singleton_append, lineEnds_cons, lineEnds_cons, ih]
      have newline : first = 0x0A ↔ c = '\n' := same '\n' (by decide)
      have return_ : first = 0x0D ↔ c = '\r' := same '\r' (by decide)
      have next : rest.head? = some 0x0A ↔ cs.head? = some '\n' := others.head?_iff (c := '\n') (by decide)
      simp only [newline, return_, ne_eq, next]
    · have plain : c ≠ '\n' ∧ c ≠ '\r' := by
        constructor
        · rintro rfl
          exact absurd other (by decide)
        · rintro rfl
          exact absurd other (by decide)
      rw [lineEnds_append fun b hb => no_line_end ?_, ih, lineEnds_cons, if_neg (by simp [plain]), Nat.add_zero]
      rcases List.mem_cons.mp (spelled ▸ hb) with rfl | later
      · exact high
      · exact (tails b later).1
  | fault faulty others ih =>
    rw [lineEnds_append fun b hb => no_line_end (faulty.not_ascii b hb), ih, lineEnds_cons, if_neg (by simp),
      Nat.add_zero]

end Utf8

/-- A file that is there is read, and its text is that of its bytes with every line end written as a newline: no return
    is left, there is a line more than there are line ends in the bytes, and bytes that spell a text are read as this
    text. What a text says is read alike in front of other bytes and behind them, and so are these. -/
theorem reading_in_place :
    (∀ (fs : FileSystem) (path : Path) (shown : RawText) (bytes : List UInt8),
      fs.entry? path = .ok (some (.file bytes)) →
        ∃ source, Source.load fs path shown = .ok source ∧ source.path = shown ∧
          Text.Unifies (Utf8.decode bytes) source.text.toList ∧ '\r' ∉ source.text.toList ∧
          source.lines.length = 1 + Text.lineEnds 0x0D 0x0A bytes ∧
          ∀ text : String, bytes = Utf8.encode text.toList → Text.Unifies text.toList source.text.toList) ∧
    ∀ bytes : List UInt8, Utf8.Reads bytes (Utf8.decode bytes) ∧
      ∀ text : String,
        Utf8.decode (Utf8.encode text.toList) = text.toList ∧
        Utf8.decode (bytes ++ Utf8.encode text.toList) = Utf8.decode bytes ++ Utf8.decode (Utf8.encode text.toList) ∧
        Utf8.decode (Utf8.encode text.toList ++ bytes) = Utf8.decode (Utf8.encode text.toList) ++ Utf8.decode bytes := by
  refine ⟨fun fs path shown bytes there => ?_, fun bytes => ⟨Utf8.reads_decode bytes, fun text => ?_⟩⟩
  · have loaded : Source.load fs path shown = .ok ⟨shown, sourceText bytes⟩ := by
      rw [Source.load, FileSystem.exists?, there, FileSystem.read_of_entry? there]
      rfl
    have unified := Text.unifies_unifyNewlines (Utf8.decode bytes)
    have text : (sourceText bytes).toList = Text.unifyNewlines (Utf8.decode bytes) := String.toList_ofList
    refine ⟨_, loaded, rfl, ?_⟩
    rw [Source.lines, Text.length_lines, Text.lineCount, text, unified.count_newline,
      ← (Utf8.reads_decode bytes).lineEnds_eq, Nat.add_comm]
    refine ⟨unified, unified.return_notMem, rfl, ?_⟩
    rintro text rfl
    rwa [Utf8.decode_encode] at unified ⊢
  · rw [Utf8.decode_append_encode, Utf8.decode_encode_append, Utf8.decode_encode]
    exact ⟨rfl, rfl, rfl⟩

/-- A byte order mark, the three kinds of line ends, a character that is cut off by a return, and a byte that is in no
    character. -/
theorem reading_in_place_cut_off :
    let bytes : List UInt8 := [0xEF, 0xBB, 0xBF, 0x61, 0x0D, 0x0A, 0xE2, 0x82, 0x0D, 0xFF, 0x0A]
    let fs : FileSystem := ⟨.directory [("a.sol", .file bytes)], []⟩
    fs.entry? (.ofText "a.sol") = .ok (some (.file bytes)) ∧
      (∃ source, Source.load fs (.ofText "a.sol") "a.sol" = .ok source ∧ '\r' ∉ source.text.toList ∧
        source.lines.length = 4 ∧ source.text.toList = "\uFEFFa\n\uFFFD\n\uFFFD\n".toList) ∧
      Utf8.decode ([0xE2, 0x82] ++ Utf8.encode "é".toList) = Utf8.decode [0xE2, 0x82] ++ "é".toList := by
  intro bytes fs
  have located : fs.locate (.ofText "a.sol") = .ok ["a.sol"] := by decide +kernel
  have there : fs.entry? (.ofText "a.sol") = .ok (some (.file bytes)) := FileSystem.entry?_of_located located
  obtain ⟨source, loaded, -, unified, noReturn, lines, -⟩ := reading_in_place.1 fs _ "a.sol" bytes there
  have ends : Text.lineEnds 0x0D 0x0A bytes = 3 := by decide
  obtain ⟨-, spelled⟩ := reading_in_place.2 [0xE2, 0x82]
  obtain ⟨own, behind, -⟩ := spelled "é"
  have decoded : Utf8.decode bytes = "\uFEFFa\r\n\uFFFD\r\uFFFD\n".toList := by
    decide +kernel
  refine ⟨there, ⟨source, loaded, noReturn, by rw [lines, ends], ?_⟩, by rw [behind, own]⟩
  rw [decoded] at unified
  exact unified.unique (Text.unifies_unifyNewlines _)

end SolidityLint

import Mathlib.Data.List.Basic
import SolidityLint.Bytes.Utf8

/-! Text written in UTF-8 is read back. The first byte of a character says how many follow and which range the next
    one is in, and each of those holds six bits of the code. -/

namespace SolidityLint.Utf8

/-! ### First bytes -/

theorem lead?_two {b : Nat} (low : 0xC2 ≤ b) (high : b < 0xE0) : lead? b = some (1, 0x80, 0xBF, b - 0xC0) := by
  rw [lead?, if_neg (Nat.not_lt.mpr low), if_pos high]

/-- Of the bytes that follow the first of three, only the next one after `0xE0` or `0xED` has less room. -/
theorem lead?_three {b : Nat} (low : 0xE0 ≤ b) (high : b < 0xF0) :
    ∃ least most, lead? b = some (2, least, most, b - 0xE0) ∧
      ∀ next, 0x80 ≤ next → next ≤ 0xBF → (b = 0xE0 → 0xA0 ≤ next) → (b = 0xED → next ≤ 0x9F) →
        least ≤ next ∧ next ≤ most := by
  unfold lead?
  rw [if_neg (by omega), if_neg (by omega)]
  split
  · rename_i first
    exact ⟨0xA0, 0xBF, by rw [first], fun next _ top bottom _ => ⟨bottom first, top⟩⟩
  · split
    · rename_i first
      exact ⟨0x80, 0x9F, by rw [first], fun next bottom _ _ top => ⟨bottom, top first⟩⟩
    · exact ⟨0x80, 0xBF, rfl, fun next bottom top _ _ => ⟨bottom, top⟩⟩

/-- Of the bytes that follow the first of four, only the next one after `0xF0` or `0xF4` has less room. -/
theorem lead?_four {b : Nat} (low : 0xF0 ≤ b) (high : b ≤ 0xF4) :
    ∃ least most, lead? b = some (3, least, most, b - 0xF0) ∧
      ∀ next, 0x80 ≤ next → next ≤ 0xBF → (b = 0xF0 → 0x90 ≤ next) → (b = 0xF4 → next ≤ 0x8F) →
        least ≤ next ∧ next ≤ most := by
  unfold lead?
  rw [if_neg (by omega), if_neg (by omega), if_neg (by omega), if_neg (by omega), if_neg (by omega)]
  split
  · rename_i first
    exact ⟨0x90, 0xBF, by rw [first], fun next _ top bottom _ => ⟨bottom first, top⟩⟩
  · split
    · exact ⟨0x80, 0xBF, rfl, fun next bottom top _ _ => ⟨bottom, top⟩⟩
    · rename_i last
      obtain rfl : b = 0xF4 := by omega
      exact ⟨0x80, 0x8F, rfl, fun next bottom _ _ top => ⟨bottom, top rfl⟩⟩

/-! ### One character -/

theorem continuation_succ {count low high code width next : Nat} (rest : List UInt8) (small : next < 256)
    (inside : low ≤ next ∧ next ≤ high) :
    continuation (count + 1) low high code width (UInt8.ofNat next :: rest) =
      continuation count 0x80 0xBF (code * 64 + (next - 0x80)) (width + 1) rest := by
  have value : (UInt8.ofNat next).toNat = next := UInt8.toNat_ofNat_of_lt' small
  rw [continuation, value, if_pos inside]

theorem step_of_lead {b count low high code : Nat} (small : b < 256) (first : 0x80 ≤ b)
    (lead : lead? b = some (count, low, high, code)) (rest : List UInt8) :
    step (UInt8.ofNat b) rest = continuation count low high code 1 rest := by
  have value : (UInt8.ofNat b).toNat = b := UInt8.toNat_ofNat_of_lt' small
  rw [step, value, if_neg (Nat.not_lt.mpr first), lead]

/-- The bytes of a character are read as that character, whatever follows them. -/
theorem step_utf8EncodeChar (c : Char) (rest : List UInt8) :
    ∃ first others, String.utf8EncodeChar c = first :: others ∧
      step first (others ++ rest) = .char c (others.length + 1) := by
  have valid : c.val.toNat < 0xD800 ∨ 0xDFFF < c.val.toNat ∧ c.val.toNat < 0x110000 := c.valid
  have spelled : Char.ofNat c.val.toNat = c := Char.ofNat_toNat c
  unfold String.utf8EncodeChar
  generalize c.val.toNat = code at valid spelled
  dsimp only
  split
  · refine ⟨_, _, rfl, ?_⟩
    have value : (UInt8.ofNat code).toNat = code := UInt8.toNat_ofNat_of_lt' (show code < 256 by omega)
    rw [step, value, if_pos (by omega), spelled]
    rfl
  · split
    · refine ⟨_, _, rfl, ?_⟩
      have lead := lead?_two (b := code / 64 % 32 + 192) (by omega) (by omega)
      rw [step_of_lead (by omega) (by omega) lead, List.cons_append,
        continuation_succ _ (by omega) (by omega), continuation,
        show (code / 64 % 32 + 192 - 0xC0) * 64 + (code % 64 + 128 - 0x80) = code by omega, spelled]
      rfl
    · split
      · refine ⟨_, _, rfl, ?_⟩
        obtain ⟨least, most, lead, room⟩ := lead?_three (b := code / 4096 % 16 + 224) (by omega) (by omega)
        have second := room (code / 64 % 64 + 128) (by omega) (by omega) (by omega) (by omega)
        rw [step_of_lead (by omega) (by omega) lead, List.cons_append, List.cons_append,
          continuation_succ _ (by omega) second, continuation_succ _ (by omega) (by omega), continuation,
          show ((code / 4096 % 16 + 224 - 0xE0) * 64 + (code / 64 % 64 + 128 - 0x80)) * 64 +
            (code % 64 + 128 - 0x80) = code by omega, spelled]
        rfl
      · refine ⟨_, _, rfl, ?_⟩
        obtain ⟨least, most, lead, room⟩ := lead?_four (b := code / 262144 % 8 + 240) (by omega) (by omega)
        have second := room (code / 4096 % 64 + 128) (by omega) (by omega) (by omega) (by omega)
        rw [step_of_lead (by omega) (by omega) lead, List.cons_append, List.cons_append, List.cons_append,
          continuation_succ _ (by omega) second, continuation_succ _ (by omega) (by omega),
          continuation_succ _ (by omega) (by omega), continuation,
          show (((code / 262144 % 8 + 240 - 0xF0) * 64 + (code / 4096 % 64 + 128 - 0x80)) * 64 +
            (code / 64 % 64 + 128 - 0x80)) * 64 + (code % 64 + 128 - 0x80) = code by omega, spelled]
        rfl

/-- Only the null character has a null byte. -/
theorem zero_notMem_utf8EncodeChar {c : Char} (h : c ≠ '\x00') : (0 : UInt8) ∉ String.utf8EncodeChar c := by
  have spelled : Char.ofNat c.val.toNat = c := Char.ofNat_toNat c
  have pos : c.val.toNat ≠ 0 := fun null => h (by rw [← spelled, null])
  have differs {n : Nat} (small : n < 256) (pos : n ≠ 0) : (0 : UInt8) ≠ UInt8.ofNat n := by
    intro same
    have value : (UInt8.ofNat n).toNat = n := UInt8.toNat_ofNat_of_lt' small
    rw [← same] at value
    exact pos value.symm
  unfold String.utf8EncodeChar
  generalize c.val.toNat = code at pos
  dsimp only
  split
  · simp only [List.mem_cons, List.not_mem_nil, or_false]
    exact differs (by omega) pos
  · split
    · simp only [List.mem_cons, List.not_mem_nil, or_false, not_or]
      exact ⟨differs (by omega) (by omega), differs (by omega) (by omega)⟩
    · split
      · simp only [List.mem_cons, List.not_mem_nil, or_false, not_or]
        exact ⟨differs (by omega) (by omega), differs (by omega) (by omega), differs (by omega) (by omega)⟩
      · simp only [List.mem_cons, List.not_mem_nil, or_false, not_or]
        exact ⟨differs (by omega) (by omega), differs (by omega) (by omega), differs (by omega) (by omega),
          differs (by omega) (by omega)⟩

/-! ### Whole texts -/

theorem encode_cons (c : Char) (cs : List Char) : encode (c :: cs) = String.utf8EncodeChar c ++ encode cs := rfl

theorem decodePartFrom_encode (isLast : Bool) (done cs : List Char) (position : Nat) :
    decodePartFrom isLast done position (encode cs) = .ok (done.reverse ++ cs, []) := by
  induction cs generalizing done position with
  | nil => rw [encode, List.flatMap_nil, decodePartFrom, List.append_nil]
  | cons c cs ih =>
    obtain ⟨first, others, bytes, read⟩ := step_utf8EncodeChar c (encode cs)
    rw [encode_cons, bytes, List.cons_append, decodePartFrom, read]
    simp [ih]

theorem decodeStrict_encode (cs : List Char) : decodeStrict (encode cs) = .ok cs := by
  rw [decodeStrict, decodePart, decodePartFrom_encode]
  rfl

end SolidityLint.Utf8

import SolidityLint.Proofs.Bytes.Utf8

/-! Text read with replacement. Bytes are whole characters and faulty parts, and a faulty part has as many bytes as could
    still have become a character (`Reads`); reading finds this one way to take them apart (`decode_eq_iff`). A byte in
    front of a character is never mistaken for one inside it, so whole characters end a faulty part, and what stands
    beside them is read as it would be by itself. -/

namespace SolidityLint.Utf8

/-! ### The bytes of a character -/

/-- Whether a byte only follows others in a character. -/
def IsTail (b : UInt8) : Prop :=
  0x80 ≤ b.toNat ∧ b.toNat ≤ 0xBF

/-- A character of ASCII is its own byte; in any other one no byte is of ASCII. Only the first byte is no tail. -/
theorem exists_utf8EncodeChar (c : Char) :
    ∃ first others, String.utf8EncodeChar c = first :: others ∧ ¬IsTail first ∧ (∀ b ∈ others, IsTail b) ∧
      (first.toNat = c.toNat ∧ others = [] ∨ 0x80 ≤ c.toNat ∧ 0x80 ≤ first.toNat) := by
  have valid : c.val.toNat < 0xD800 ∨ 0xDFFF < c.val.toNat ∧ c.val.toNat < 0x110000 := c.valid
  unfold String.utf8EncodeChar Char.toNat
  generalize c.val.toNat = code at valid
  have value {n : Nat} (small : n < 256) : (UInt8.ofNat n).toNat = n := UInt8.toNat_ofNat_of_lt' small
  have tail {n : Nat} : IsTail (UInt8.ofNat (n % 64 + 128)) := by
    rw [IsTail, value (by omega)]
    omega
  have first {n : Nat} (small : n < 256) (other : n < 0x80 ∨ 0xBF < n) : ¬IsTail (UInt8.ofNat n) := by
    rw [IsTail, value small]
    omega
  dsimp only
  split
  · exact ⟨_, _, rfl, first (by omega) (by omega), nofun, Or.inl ⟨value (by omega), rfl⟩⟩
  · split
    · refine ⟨_, _, rfl, first (by omega) (by omega), ?_, Or.inr ⟨by omega, ?_⟩⟩
      · simp only [List.forall_mem_cons]
        exact ⟨tail, nofun⟩
      · rw [value (by omega)]
        omega
    · split
      · refine ⟨_, _, rfl, first (by omega) (by omega), ?_, Or.inr ⟨by omega, ?_⟩⟩
        · simp only [List.forall_mem_cons]
          exact ⟨tail, tail, nofun⟩
        · rw [value (by omega)]
          omega
      · refine ⟨_, _, rfl, first (by omega) (by omega), ?_, Or.inr ⟨by omega, ?_⟩⟩
        · simp only [List.forall_mem_cons]
          exact ⟨tail, tail, tail, nofun⟩
        · rw [value (by omega)]
          omega

theorem toNat_ofNat {code : Nat} (valid : code.isValidChar) : (Char.ofNat code).toNat = code := by
  rw [Char.ofNat, dif_pos valid]
  rfl

theorem ofNat_eq {n : Nat} {b : UInt8} (h : n = b.toNat) : UInt8.ofNat n = b := by
  rw [h, UInt8.ofNat_toNat]

theorem utf8EncodeChar_ofNat {code : Nat} (valid : code.isValidChar) :
    String.utf8EncodeChar (Char.ofNat code) =
      if code ≤ 0x7F then [.ofNat code]
      else if code ≤ 0x7FF then [.ofNat (code / 64 % 32 + 192), .ofNat (code % 64 + 128)]
      else if code ≤ 0xFFFF then
        [.ofNat (code / 4096 % 16 + 224), .ofNat (code / 64 % 64 + 128), .ofNat (code % 64 + 128)]
      else
        [.ofNat (code / 262144 % 8 + 240), .ofNat (code / 4096 % 64 + 128), .ofNat (code / 64 % 64 + 128),
          .ofNat (code % 64 + 128)] := by
  have value : (Char.ofNat code).val.toNat = code := toNat_ofNat valid
  rw [String.utf8EncodeChar]
  simp only [value]

/-! ### Characters that are read -/

/-- What a first byte can say. Of the second byte some values are kept out after four first bytes: those that would spell
    a code in more bytes than it needs, half of a surrogate pair, or more than the last character. -/
theorem lead?_cases {b count low high code : Nat} (h : lead? b = some (count, low, high, code)) :
    0x80 ≤ low ∧ low ≤ high ∧ high ≤ 0xBF ∧
      (count = 1 ∧ 0xC2 ≤ b ∧ b < 0xE0 ∧ code = b - 0xC0 ∨
        count = 2 ∧ 0xE0 ≤ b ∧ b < 0xF0 ∧ code = b - 0xE0 ∧ (b = 0xE0 → low = 0xA0) ∧ (b = 0xED → high = 0x9F) ∨
        count = 3 ∧ 0xF0 ≤ b ∧ b ≤ 0xF4 ∧ code = b - 0xF0 ∧ (b = 0xF0 → low = 0x90) ∧ (b = 0xF4 → high = 0x8F)) := by
  unfold lead? at h
  repeat' split at h
  all_goals cases h <;> omega

theorem continuation_succ_eq_char {count low high code width total : Nat} {rest : List UInt8} {c : Char}
    (h : continuation (count + 1) low high code width rest = .char c total) :
    ∃ next behind, rest = next :: behind ∧ low ≤ next.toNat ∧ next.toNat ≤ high ∧
      continuation count 0x80 0xBF (code * 64 + (next.toNat - 0x80)) (width + 1) behind = .char c total := by
  cases rest with
  | nil => cases h
  | cons next behind =>
    rw [continuation] at h
    split at h
    · rename_i inside
      exact ⟨next, behind, rfl, inside.1, inside.2, h⟩
    · cases h

/-- What is read as a character are the bytes of this character. -/
theorem step_eq_char {b : UInt8} {rest : List UInt8} {c : Char} {width : Nat} (h : step b rest = .char c width) :
    ∃ others behind, rest = others ++ behind ∧ String.utf8EncodeChar c = b :: others ∧ width = others.length + 1 := by
  unfold step at h
  split at h
  · obtain ⟨rfl, rfl⟩ := Step.char.inj h
    refine ⟨[], rest, rfl, ?_, rfl⟩
    rw [utf8EncodeChar_ofNat (Or.inl (by omega)), if_pos (by omega), UInt8.ofNat_toNat]
  · split at h
    · cases h
    · rename_i count low high code lead
      obtain ⟨least, -, most, two | three | four⟩ := lead?_cases lead
      · obtain ⟨one, least', most', spelled⟩ := two
        rw [one] at h
        obtain ⟨x, behind, rfl, lowX, highX, h⟩ := continuation_succ_eq_char h
        obtain ⟨rfl, rfl⟩ := Step.char.inj h
        refine ⟨[x], behind, rfl, ?_, rfl⟩
        rw [utf8EncodeChar_ofNat (Or.inl (by omega)), if_neg (by omega), if_pos (by omega),
          ofNat_eq (b := b) (by omega), ofNat_eq (b := x) (by omega)]
      · obtain ⟨two, least', most', spelled, short, half⟩ := three
        rw [two] at h
        obtain ⟨x, behind, rfl, lowX, highX, h⟩ := continuation_succ_eq_char h
        obtain ⟨y, behind, rfl, lowY, highY, h⟩ := continuation_succ_eq_char h
        obtain ⟨rfl, rfl⟩ := Step.char.inj h
        refine ⟨[x, y], behind, rfl, ?_, rfl⟩
        generalize whole : (code * 64 + (x.toNat - 0x80)) * 64 + (y.toNat - 0x80) = value
        have valid : value < 0xD800 ∨ 0xDFFF < value ∧ value < 0x110000 := by omega
        rw [utf8EncodeChar_ofNat valid, if_neg (by omega), if_neg (by omega), if_pos (by omega),
          ofNat_eq (b := b) (by omega), ofNat_eq (b := x) (by omega), ofNat_eq (b := y) (by omega)]
      · obtain ⟨three, least', most', spelled, short, last⟩ := four
        rw [three] at h
        obtain ⟨x, behind, rfl, lowX, highX, h⟩ := continuation_succ_eq_char h
        obtain ⟨y, behind, rfl, lowY, highY, h⟩ := continuation_succ_eq_char h
        obtain ⟨z, behind, rfl, lowZ, highZ, h⟩ := continuation_succ_eq_char h
        obtain ⟨rfl, rfl⟩ := Step.char.inj h
        refine ⟨[x, y, z], behind, rfl, ?_, rfl⟩
        generalize whole : ((code * 64 + (x.toNat - 0x80)) * 64 + (y.toNat - 0x80)) * 64 + (z.toNat - 0x80) = value
        have valid : value < 0xD800 ∨ 0xDFFF < value ∧ value < 0x110000 := by omega
        rw [utf8EncodeChar_ofNat valid, if_neg (by omega), if_neg (by omega), if_neg (by omega),
          ofNat_eq (b := b) (by omega), ofNat_eq (b := x) (by omega), ofNat_eq (b := y) (by omega),
          ofNat_eq (b := z) (by omega)]

theorem step_of_prefix {b : UInt8} {rest : List UInt8} {c : Char} (h : String.utf8EncodeChar c <+: b :: rest) :
    ∃ width, step b rest = .char c width := by
  obtain ⟨behind, joined⟩ := h
  obtain ⟨first, others, bytes, read⟩ := step_utf8EncodeChar c behind
  rw [bytes, List.cons_append] at joined
  obtain ⟨rfl, rfl⟩ := List.cons.inj joined
  exact ⟨_, read⟩

/-! ### Faulty parts that are read -/

theorem continuation_replicate (count code width : Nat) :
    ∃ c, continuation count 0x80 0xBF code width (List.replicate count 0x80) = .char c (width + count) := by
  induction count generalizing code width with
  | zero => exact ⟨_, rfl⟩
  | succ count ih =>
    obtain ⟨c, read⟩ := ih (code * 64) (width + 1)
    refine ⟨c, ?_⟩
    rw [List.replicate_succ, continuation, if_pos (by decide), show (0x80 : UInt8).toNat - 0x80 = 0 from rfl,
      Nat.add_zero, read, Nat.add_assoc, Nat.add_comm 1]

/-- Where the reading of a character stops, the bytes in front could still have become one, and the next byte stops it
    whatever follows. -/
theorem continuation_eq_fault {count low high code width total : Nat} {rest : List UInt8} {reason : Fault}
    (ordered : low ≤ high) (small : high < 256) (h : continuation count low high code width rest = .fault reason total) :
    ∃ front behind, rest = front ++ behind ∧ total = width + front.length ∧
      (∀ next more, behind.head? = some next →
        ∃ reason, continuation count low high code width (front ++ next :: more) = .fault reason total) ∧
      ∃ more c, continuation count low high code width (front ++ more) = .char c (width + front.length + more.length) := by
  induction count generalizing low high code width rest with
  | zero => cases h
  | succ count ih =>
    have fresh : ∃ more c, continuation (count + 1) low high code width more = .char c (width + more.length) := by
      have value : (UInt8.ofNat low).toNat = low := UInt8.toNat_ofNat_of_lt' (by omega : low < 256)
      obtain ⟨c, read⟩ := continuation_replicate count (code * 64 + (low - 0x80)) (width + 1)
      refine ⟨UInt8.ofNat low :: List.replicate count 0x80, c, ?_⟩
      rw [continuation, value, if_pos ⟨Nat.le_refl low, ordered⟩, read, List.length_cons, List.length_replicate]
      exact congrArg (Step.char c) (by omega)
    cases rest with
    | nil =>
      obtain ⟨rfl, rfl⟩ := Step.fault.inj h
      exact ⟨[], [], rfl, rfl, fun other more head => (by cases head), fresh⟩
    | cons next behind =>
      rw [continuation] at h
      split at h
      · rename_i inside
        obtain ⟨front, behind, rfl, rfl, stops, more, c, read⟩ := ih (by decide) (by decide) h
        refine ⟨next :: front, behind, rfl, ?_, fun other more head => ?_, more, c, ?_⟩
        · rw [List.length_cons]
          omega
        · rw [List.cons_append, continuation, if_pos inside]
          exact stops other more head
        · rw [List.cons_append, continuation, if_pos inside, read, List.length_cons]
          exact congrArg (Step.char c) (by omega)
      · rename_i outside
        obtain ⟨rfl, rfl⟩ := Step.fault.inj h
        refine ⟨[], next :: behind, rfl, rfl, fun other more head => ⟨.invalidContinuation, ?_⟩, fresh⟩
        obtain rfl := Option.some.inj head
        rw [List.nil_append, continuation, if_neg outside]

/-- Whether bytes are the beginning of a character, or a whole one. -/
def Begins (part : List UInt8) : Prop :=
  ∃ c, part <+: String.utf8EncodeChar c

theorem step_eq_fault {b : UInt8} {rest : List UInt8} {reason : Fault} {width : Nat}
    (h : step b rest = .fault reason width) :
    ∃ front behind, rest = front ++ behind ∧ width = front.length + 1 ∧
      (∀ next more, behind.head? = some next → ∃ reason, step b (front ++ next :: more) = .fault reason width) ∧
      (Begins (b :: front) ∨ front = []) := by
  unfold step at h
  split at h
  · cases h
  · rename_i ascii
    split at h
    · rename_i lead
      obtain ⟨rfl, rfl⟩ := Step.fault.inj h
      refine ⟨[], rest, rfl, rfl, fun next more _ => ⟨.invalidStart, ?_⟩, Or.inr rfl⟩
      rw [step, if_neg ascii, lead]
    · rename_i count low high code lead
      have begun (more : List UInt8) : step b more = continuation count low high code 1 more := by
        rw [step, if_neg ascii, lead]
      obtain ⟨-, ordered, most, -⟩ := lead?_cases lead
      obtain ⟨front, behind, rfl, rfl, stops, more, c, read⟩ := continuation_eq_fault ordered (by omega) h
      refine ⟨front, behind, rfl, Nat.add_comm .., fun next more head => ?_, Or.inl ⟨c, ?_⟩⟩
      · rw [begun]
        exact stops next more head
      · rw [← begun] at read
        obtain ⟨others, after, same, bytes, widths⟩ := step_eq_char read
        have whole : (front ++ more).length = others.length := by
          rw [List.length_append]
          omega
        obtain ⟨rfl, -⟩ := List.append_inj ((List.append_nil _).trans same) whole
        exact bytes ▸ ⟨more, rfl⟩

/-! ### How bytes are taken apart -/

/-- A faulty part with what follows it: no character stands there, and the part has as many bytes as could still have
    become one, but at least one. -/
structure Faulty (part rest : List UInt8) : Prop where
  noChar : ∀ c, ¬String.utf8EncodeChar c <+: part ++ rest
  nonempty : part ≠ []
  begins : Begins part ∨ part.length = 1
  longest : ∀ other, other <+: part ++ rest → Begins other → other.length ≤ part.length

/-- The text of bytes: their characters, and a replacement character for each faulty part. -/
inductive Reads : List UInt8 → List Char → Prop
  | nil : Reads [] []
  | char (c : Char) {rest : List UInt8} {cs : List Char} (others : Reads rest cs) :
    Reads (String.utf8EncodeChar c ++ rest) (c :: cs)
  | fault {part rest : List UInt8} {cs : List Char} (faulty : Faulty part rest) (others : Reads rest cs) :
    Reads (part ++ rest) ('\uFFFD' :: cs)

/-- A faulty part is cut off where the reading of a character stops. -/
theorem faulty_of_step {b : UInt8} {rest : List UInt8} {reason : Fault} {width : Nat}
    (h : step b rest = .fault reason width) : Faulty (b :: rest.take (width - 1)) (rest.drop (width - 1)) := by
  have noChar (c : Char) : ¬String.utf8EncodeChar c <+: b :: rest := by
    intro here
    obtain ⟨_, read⟩ := step_of_prefix here
    rw [read] at h
    cases h
  obtain ⟨front, behind, rfl, rfl, stops, begins⟩ := step_eq_fault h
  rw [Nat.add_sub_cancel, List.take_left, List.drop_left]
  refine ⟨noChar, List.cons_ne_nil _ _, begins.imp_right fun none => by rw [none]; rfl, ?_⟩
  rintro other ⟨after, joined⟩ ⟨c, here⟩
  by_contra longer
  -- A longer beginning of a character would go over the byte that stops the reading.
  obtain ⟨longest, rfl⟩ : ∃ longest, other = (b :: front) ++ longest := by
    have part : b :: front <+: (b :: front) ++ behind := List.prefix_append ..
    obtain ⟨longest, same⟩ := List.prefix_of_prefix_length_le part ⟨after, joined⟩ (Nat.le_of_not_le longer)
    exact ⟨longest, same.symm⟩
  rw [List.append_assoc] at joined
  have joined := List.append_cancel_left joined
  cases longest with
  | nil => exact longer (Nat.le_of_eq (congrArg List.length (List.append_nil _)))
  | cons next more =>
    obtain ⟨rest, whole⟩ := here
    obtain ⟨reason, stopped⟩ := stops next (more ++ rest) (by rw [← joined]; rfl)
    have here : String.utf8EncodeChar c <+: b :: (front ++ next :: (more ++ rest)) := by
      rw [← whole]
      simp
    obtain ⟨_, read⟩ := step_of_prefix here
    rw [stopped] at read
    cases read

theorem exists_decodeFrom (done : List Char) (bytes : List UInt8) :
    ∃ cs, decodeFrom done bytes = done.reverse ++ cs ∧ Reads bytes cs := by
  fun_induction decodeFrom done bytes with
  | case1 done => exact ⟨[], (List.append_nil _).symm, .nil⟩
  | case2 done b rest c width read ih =>
    obtain ⟨cs, made, others⟩ := ih
    obtain ⟨more, behind, rfl, bytes, rfl⟩ := step_eq_char read
    rw [Nat.add_sub_cancel, List.drop_left] at others
    refine ⟨c :: cs, by rw [made, List.reverse_cons, List.append_assoc, List.singleton_append], ?_⟩
    have here := Reads.char c others
    rwa [bytes] at here
  | case3 done b rest reason width read ih =>
    obtain ⟨cs, made, others⟩ := ih
    refine ⟨'\uFFFD' :: cs, by rw [made, List.reverse_cons, List.append_assoc, List.singleton_append], ?_⟩
    have here := Reads.fault (faulty_of_step read) others
    rwa [List.cons_append, List.take_append_drop] at here

theorem reads_decode (bytes : List UInt8) : Reads bytes (decode bytes) := by
  obtain ⟨cs, made, reads⟩ := exists_decodeFrom [] bytes
  rwa [decode, made, List.reverse_nil, List.nil_append]

/-- No character is the beginning of another one. -/
theorem eq_of_prefix {c d : Char} {bytes : List UInt8} (hc : String.utf8EncodeChar c <+: bytes)
    (hd : String.utf8EncodeChar d <+: bytes) : c = d := by
  cases bytes with
  | nil =>
    obtain ⟨first, others, bytes, -⟩ := exists_utf8EncodeChar c
    rw [bytes, List.prefix_nil] at hc
    cases hc
  | cons b rest =>
    obtain ⟨_, read⟩ := step_of_prefix hc
    obtain ⟨_, read'⟩ := step_of_prefix hd
    rw [read] at read'
    exact (Step.char.inj read').1

theorem Faulty.length_le {part rest other after : List UInt8} (h : Faulty part rest) (h' : Faulty other after)
    (same : part ++ rest = other ++ after) : part.length ≤ other.length := by
  rcases h.begins with begins | single
  · exact h'.longest part ⟨rest, same⟩ begins
  · rw [single]
    exact List.length_pos_iff.mpr h'.nonempty

/-- Bytes can be taken apart in one way only. -/
theorem Reads.unique {bytes : List UInt8} {cs ds : List Char} (h : Reads bytes cs) (h' : Reads bytes ds) : cs = ds := by
  induction h generalizing ds with
  | nil =>
    generalize none : ([] : List UInt8) = bytes at h'
    cases h' with
    | nil => rfl
    | char c others =>
      obtain ⟨first, more, bytes, -⟩ := exists_utf8EncodeChar c
      simp [bytes] at none
    | fault faulty others => exact absurd (List.nil_eq_append_iff.mp none).1 faulty.nonempty
  | @char c rest cs others ih =>
    generalize same : String.utf8EncodeChar c ++ rest = bytes at h'
    cases h' with
    | nil =>
      obtain ⟨first, more, bytes, -⟩ := exists_utf8EncodeChar c
      simp [bytes] at same
    | char d others' =>
      obtain rfl := eq_of_prefix ⟨rest, same⟩ (List.prefix_append ..)
      rw [ih (List.append_cancel_left same ▸ others')]
    | fault faulty others' => exact absurd ⟨rest, same⟩ (faulty.noChar c)
  | @fault part rest cs faulty others ih =>
    generalize same : part ++ rest = bytes at h'
    cases h' with
    | nil => exact absurd (List.append_eq_nil_iff.mp same).1 faulty.nonempty
    | char d others' => exact absurd ⟨_, same.symm⟩ (faulty.noChar d)
    | fault faulty' others' =>
      have lengths := Nat.le_antisymm (faulty.length_le faulty' same) (faulty'.length_le faulty same.symm)
      obtain ⟨rfl, rfl⟩ := List.append_inj same lengths
      rw [ih others']

theorem decode_eq_iff {bytes : List UInt8} {cs : List Char} : decode bytes = cs ↔ Reads bytes cs :=
  ⟨fun same => same ▸ reads_decode bytes, (reads_decode bytes).unique⟩

/-! ### Whole characters beside other bytes -/

theorem Reads.encode_append {rest : List UInt8} {ds : List Char} (h : Reads rest ds) (cs : List Char) :
    Reads (encode cs ++ rest) (cs ++ ds) := by
  induction cs with
  | nil => exact h
  | cons c cs ih =>
    rw [encode_cons, List.append_assoc]
    exact .char c ih

theorem reads_encode (cs : List Char) : Reads (encode cs) cs := by
  have whole := Reads.nil.encode_append cs
  rwa [List.append_nil, List.append_nil] at whole

theorem not_isTail_of_head?_encode {cs : List Char} {b : UInt8} (h : (encode cs).head? = some b) : ¬IsTail b := by
  cases cs with
  | nil => cases h
  | cons c cs =>
    obtain ⟨first, others, bytes, starts, -⟩ := exists_utf8EncodeChar c
    rw [encode_cons, bytes] at h
    obtain rfl := Option.some.inj h
    exact starts

/-- The beginning of a character does not reach over the start of the next one. -/
theorem Begins.prefix_of_append {other bytes : List UInt8} {cs : List Char} (h : Begins other) (nonempty : bytes ≠ [])
    (here : other <+: bytes ++ encode cs) : other <+: bytes := by
  by_contra outside
  have part : bytes <+: bytes ++ encode cs := List.prefix_append ..
  obtain ⟨more, rfl⟩ : bytes <+: other := by
    rcases Nat.le_total other.length bytes.length with shorter | longer
    · exact absurd (List.prefix_of_prefix_length_le here part shorter) outside
    · exact List.prefix_of_prefix_length_le part here longer
  obtain ⟨after, joined⟩ := here
  rw [List.append_assoc] at joined
  have joined := List.append_cancel_left joined
  cases more with
  | nil => exact outside ⟨[], by simp⟩
  | cons next more =>
    have head : (encode cs).head? = some next := by
      rw [← joined]
      rfl
    have starts : ¬IsTail next := not_isTail_of_head?_encode head
    obtain ⟨c, rest, whole⟩ := h
    obtain ⟨first, others, spelled, -, tails, -⟩ := exists_utf8EncodeChar c
    obtain ⟨b, bytes, rfl⟩ := List.exists_cons_of_ne_nil nonempty
    rw [spelled] at whole
    have inside : next ∈ others := by
      rw [← (List.cons.inj whole).2]
      simp
    exact starts (tails next inside)

theorem Faulty.append_encode {part rest : List UInt8} (h : Faulty part rest) (cs : List Char) :
    Faulty part (rest ++ encode cs) := by
  have nonempty : part ++ rest ≠ [] := fun none => h.nonempty (List.append_eq_nil_iff.mp none).1
  refine ⟨fun c here => ?_, h.nonempty, h.begins, fun other here begins => ?_⟩
  · rw [← List.append_assoc] at here
    exact h.noChar c (Begins.prefix_of_append ⟨c, List.prefix_rfl⟩ nonempty here)
  · rw [← List.append_assoc] at here
    exact h.longest other (begins.prefix_of_append nonempty here) begins

theorem Reads.append_encode {bytes : List UInt8} {ds : List Char} (h : Reads bytes ds) (cs : List Char) :
    Reads (bytes ++ encode cs) (ds ++ cs) := by
  induction h with
  | nil => exact reads_encode cs
  | char c others ih =>
    rw [List.append_assoc]
    exact .char c ih
  | fault faulty others ih =>
    rw [List.append_assoc]
    exact .fault (faulty.append_encode cs) ih

theorem decode_encode (cs : List Char) : decode (encode cs) = cs :=
  decode_eq_iff.mpr (reads_encode cs)

theorem decode_append_encode (bytes : List UInt8) (cs : List Char) : decode (bytes ++ encode cs) = decode bytes ++ cs :=
  decode_eq_iff.mpr ((reads_decode bytes).append_encode cs)

theorem decode_encode_append (cs : List Char) (bytes : List UInt8) : decode (encode cs ++ bytes) = cs ++ decode bytes :=
  decode_eq_iff.mpr ((reads_decode bytes).encode_append cs)

end SolidityLint.Utf8

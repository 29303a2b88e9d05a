import SolidityLint.Json.Reader
import SolidityLint.Json.Writer

/-! Texts and whole numbers in documents. What a text or a number is printed as tells where it ends, so it is read back
    with whatever follows. -/

namespace SolidityLint.Json

open Text Number

/-! ### Texts -/

/-- A new line or a printable character of ASCII. -/
def IsPrinted (c : Char) : Prop :=
  c = '\n' ∨ 0x20 ≤ c.toNat ∧ c.toNat ≤ 0x7E

instance (c : Char) : Decidable (IsPrinted c) :=
  inferInstanceAs (Decidable (_ ∨ _ ∧ _))

theorem hexDigit?_hexDigit {n : Nat} (h : n < 16) : hexDigit? (hexDigit n) = some n := by
  revert n
  decide

theorem fourDigits?_hexDigits {code : Nat} (h : code < 0x10000) (rest : List Char) :
    fourDigits? (hexDigits 4 code ++ rest) = some (code, rest) := by
  have digits : hexDigits 4 code = [hexDigit (code / 16 / 16 / 16 % 16), hexDigit (code / 16 / 16 % 16),
    hexDigit (code / 16 % 16), hexDigit (code % 16)] := rfl
  have digit (n : Nat) : hexDigit? (hexDigit (n % 16)) = some (n % 16) := hexDigit?_hexDigit (Nat.mod_lt n (by decide))
  rw [digits]
  simp only [List.cons_append, List.nil_append, fourDigits?, hexNumber?, List.foldlM_cons, List.foldlM_nil, digit,
    Option.map_some, Option.bind_eq_bind, Option.bind_some, Option.pure_def]
  congr 2
  omega

theorem not_surrogate (c : Char) : c.toNat < 0xD800 ∨ 0xE000 ≤ c.toNat := by
  have valid := c.valid
  unfold UInt32.isValidChar Nat.isValidChar at valid
  have : c.toNat = c.val.toNat := rfl
  omega

theorem ofCode_toNat (c : Char) : CodePoint.ofCode c.toNat = .char c := by
  rw [CodePoint.ofCode, dif_neg, Char.ofNat_toNat]
  have := not_surrogate c
  omega

/-- The escape of a character of the basic plane is read as that character. -/
theorem unicodeEscape?_basic {c : Char} (h : c.toNat < 0x10000) (rest : List Char) :
    unicodeEscape? (hexDigits 4 c.toNat ++ rest) = some (.char c, rest) := by
  have outside := not_surrogate c
  simp only [unicodeEscape?, fourDigits?_hexDigits h, Option.bind_eq_bind, Option.bind_some]
  rw [if_neg (by omega), ofCode_toNat]

/-- The escapes of two halves of a pair are read as the character that they stand for. -/
theorem unicodeEscape?_pair (high low : Nat) (first : 0xD800 ≤ high ∧ high < 0xDC00)
    (second : 0xDC00 ≤ low ∧ low < 0xE000) (rest : List Char) :
    unicodeEscape? (hexDigits 4 high ++ (unicodeEscape low ++ rest)) =
      some (.char (Char.ofNat (0x10000 + (high - 0xD800) * 0x400 + (low - 0xDC00))), rest) := by
  have found : lowHalf? (unicodeEscape low ++ rest) = some (low, rest) := by
    rw [unicodeEscape, List.cons_append, List.cons_append, lowHalf?, fourDigits?_hexDigits (by omega),
      Option.filter_some, if_pos]
    simpa using second
  simp only [unicodeEscape?, fourDigits?_hexDigits (show high < 0x10000 by omega), Option.bind_eq_bind,
    Option.bind_some]
  rw [if_pos first, found]

theorem stringPoint?_plain {c : Char} (quote : c ≠ '"') (slash : c ≠ '\\') (printable : ' ' ≤ c) (rest : List Char) :
    stringPoint? (c :: rest) = some (.char c, rest) := by
  have control : ¬c < ' ' := Char.not_lt.mpr printable
  unfold stringPoint?
  split
  · rename_i same
    exact absurd (List.cons.inj same).1 slash
  · rename_i same
    exact absurd (List.cons.inj same).1 slash
  · rename_i same
    obtain ⟨rfl, rfl⟩ := List.cons.inj same
    rw [if_neg (by simp [quote, slash, control])]
  · rename_i none
    cases none

theorem stringPoint?_astral {c : Char} (h : 0x10000 ≤ c.toNat) (rest : List Char) :
    stringPoint? (unicodeEscape (0xD800 + (c.toNat - 0x10000) / 0x400) ++
      unicodeEscape (0xDC00 + (c.toNat - 0x10000) % 0x400) ++ rest) = some (.char c, rest) := by
  have valid := c.valid
  unfold UInt32.isValidChar Nat.isValidChar at valid
  have number : c.toNat = c.val.toNat := rfl
  have read := unicodeEscape?_pair (0xD800 + (c.toNat - 0x10000) / 0x400) (0xDC00 + (c.toNat - 0x10000) % 0x400)
    (by omega) (by omega) rest
  have joined : 0x10000 + (0xD800 + (c.toNat - 0x10000) / 0x400 - 0xD800) * 0x400 +
      (0xDC00 + (c.toNat - 0x10000) % 0x400 - 0xDC00) = c.toNat := by omega
  rw [joined, Char.ofNat_toNat] at read
  rw [List.append_assoc]
  exact read

/-- A character stands in a quoted string behind a slash as a letter, as itself, by its number, or by the numbers of two
    halves of a pair. -/
theorem escape_cases (c : Char) :
    (∃ letter, escape c = ['\\', letter] ∧ IsPrinted letter ∧
      ∀ rest, stringPoint? ('\\' :: letter :: rest) = some (.char c, rest)) ∨
    (escape c = [c] ∧ c ≠ '"' ∧ c ≠ '\\' ∧ ' ' ≤ c ∧ c ≤ '~') ∨
    (escape c = unicodeEscape c.toNat ∧ c.toNat < 0x10000) ∨
    (escape c = unicodeEscape (0xD800 + (c.toNat - 0x10000) / 0x400) ++
      unicodeEscape (0xDC00 + (c.toNat - 0x10000) % 0x400) ∧ 0x10000 ≤ c.toNat) := by
  by_cases short : c ∈ ['"', '\\', '\n', '\r', '\t', '\x0c', '\x08']
  · left
    simp only [List.mem_cons, List.not_mem_nil, or_false] at short
    rcases short with rfl | rfl | rfl | rfl | rfl | rfl | rfl
    all_goals exact ⟨_, rfl, by decide, fun _ => rfl⟩
  · right
    simp only [List.mem_cons, List.not_mem_nil, or_false, not_or] at short
    obtain ⟨quote, slash, newline, return_, tab, page, back⟩ := short
    rw [escape, if_neg quote, if_neg slash, if_neg newline, if_neg return_, if_neg tab, if_neg page, if_neg back]
    by_cases printable : ' ' ≤ c ∧ c ≤ '~'
    · exact Or.inl ⟨if_pos printable, quote, slash, printable⟩
    · right
      rw [if_neg printable]
      by_cases basic : c.toNat < 0x10000
      · exact Or.inl ⟨if_pos basic, basic⟩
      · exact Or.inr ⟨if_neg basic, Nat.le_of_not_lt basic⟩

/-- A character is read back from the way it stands in a quoted string. -/
theorem stringPoint?_escape (c : Char) (rest : List Char) :
    stringPoint? (escape c ++ rest) = some (.char c, rest) := by
  rcases escape_cases c with ⟨letter, spelled, -, read⟩ | ⟨spelled, quote, slash, printable⟩ | ⟨spelled, basic⟩ |
    ⟨spelled, astral⟩
  · rw [spelled]
    exact read rest
  · rw [spelled]
    exact stringPoint?_plain quote slash printable.1 rest
  · rw [spelled]
    exact unicodeEscape?_basic basic rest
  · rw [spelled]
    exact stringPoint?_astral astral rest

theorem escape_ne_quote (c : Char) : ∃ first more, escape c = first :: more ∧ first ≠ '"' := by
  have read := stringPoint?_escape c []
  cases spelled : escape c with
  | nil =>
    rw [spelled] at read
    cases read
  | cons first more =>
    refine ⟨first, more, rfl, ?_⟩
    rintro rfl
    rw [spelled] at read
    cases read

theorem readString_escaped (text : List Char) (done : List CodePoint) (rest : List Char) {fuel : Nat}
    (enough : text.length < fuel) :
    readString done fuel (text.flatMap escape ++ '"' :: rest) = some (⟨done.reverse ++ text.map .char⟩, rest) := by
  induction text generalizing done fuel with
  | nil =>
    obtain ⟨fuel, rfl⟩ := Nat.exists_eq_succ_of_ne_zero (Nat.ne_of_gt enough)
    rw [List.flatMap_nil, List.nil_append, readString, List.map_nil, List.append_nil]
  | cons c text ih =>
    obtain ⟨fuel, rfl⟩ := Nat.exists_eq_succ_of_ne_zero (Nat.ne_of_gt (Nat.zero_lt_of_lt enough))
    have read := stringPoint?_escape c (text.flatMap escape ++ '"' :: rest)
    obtain ⟨first, more, spelled, other⟩ := escape_ne_quote c
    rw [List.flatMap_cons, List.append_assoc]
    rw [spelled] at read ⊢
    unfold readString
    split
    · rename_i same
      exact absurd (List.cons.inj same).1 other
    · rw [read]
      dsimp only
      rw [ih _ (Nat.lt_of_succ_lt_succ enough)]
      simp

theorem quote_ofString (s : String) : quote (.ofString s) = '"' :: (s.toList.flatMap escape ++ ['"']) := by
  have points : (RawText.ofString s).points.flatMap escapePoint = s.toList.flatMap escape := List.flatMap_map ..
  rw [quote, points]
  rfl

/-- A quoted text is read back; behind its quote anything may follow. -/
theorem readString_quote (s : String) (rest : List Char) (fuel : Nat) (enough : s.toList.length < fuel) :
    ∃ inside, quote (.ofString s) ++ rest = '"' :: inside ∧ readString [] fuel inside = some (.ofString s, rest) := by
  refine ⟨s.toList.flatMap escape ++ '"' :: rest, ?_, readString_escaped s.toList [] rest enough⟩
  rw [quote_ofString]
  simp

theorem length_lt_length_quote (s : String) : s.toList.length < (quote (.ofString s)).length := by
  have longer (cs : List Char) : cs.length ≤ (cs.flatMap escape).length := by
    induction cs with
    | nil => exact Nat.le_refl _
    | cons c rest ih =>
      obtain ⟨first, more, spelled, -⟩ := escape_ne_quote c
      rw [List.flatMap_cons, spelled, List.length_append, List.length_cons, List.length_cons]
      omega
  have := longer s.toList
  rw [quote_ofString, List.length_cons, List.length_append]
  omega

theorem isDigit_of_mem_intText {n : Int} {c : Char} (h : c ∈ intText n) : c.isDigit = true ∨ c = '-' := by
  cases n with
  | ofNat n => exact Or.inl (Nat.isDigit_of_mem_toDigits (by decide) (by decide) h)
  | negSucc n =>
    rcases List.mem_cons.mp h with rfl | h
    · exact Or.inr rfl
    · exact Or.inl (Nat.isDigit_of_mem_toDigits (by decide) (by decide) h)

theorem digit_bounds {c : Char} (h : c.isDigit = true) : 48 ≤ c.toNat ∧ c.toNat ≤ 57 := by
  simp only [Char.isDigit, Bool.and_eq_true, decide_eq_true_eq] at h
  exact ⟨h.1, h.2⟩

theorem digitIn?_of_isDigit {c : Char} (h : c.isDigit = true) : digitIn? 10 c = some (c.toNat - 48) := by
  have bounds := digit_bounds h
  have value : decimalDigit? c = some (c.toNat - 48) := by
    rw [decimalDigit?, if_pos (by omega), if_pos h]
  rw [digitIn?, value, Option.some_or, Option.filter_some, if_pos]
  simp only [decide_eq_true_eq]
  omega

theorem joinDigits_of_digits {cs : List Char} (some : cs ≠ []) (digits : ∀ c ∈ cs, c.isDigit = true)
    (afterDigit : Bool) : joinDigits afterDigit cs = .some cs := by
  induction cs generalizing afterDigit with
  | nil => exact absurd rfl some
  | cons c rest ih =>
    obtain ⟨own, others⟩ := List.forall_mem_cons.mp digits
    have other : c ≠ '_' := fun same => by rw [same] at own; cases own
    rw [joinDigits, if_neg other]
    cases rest with
    | nil => rfl
    | cons next more => rw [ih (List.cons_ne_nil _ _) others]; rfl

theorem digitsValue?_toDigits (n : Nat) : digitsValue? 10 (Nat.toDigits 10 n) = some n := by
  have digits : ∀ c ∈ Nat.toDigits 10 n, c.isDigit = true := fun c hc =>
    Nat.isDigit_of_mem_toDigits (by decide) (by decide) hc
  have fold {cs : List Char} (digits : ∀ c ∈ cs, c.isDigit = true) (start : Nat) :
      cs.foldlM (fun n c => (digitIn? 10 c).map (n * 10 + ·)) start = some (Nat.ofDigitChars 10 cs start) := by
    induction cs generalizing start with
    | nil => rfl
    | cons c rest ih =>
      obtain ⟨own, others⟩ := List.forall_mem_cons.mp digits
      rw [List.foldlM_cons, digitIn?_of_isDigit own, Nat.ofDigitChars_cons]
      simp only [Option.map_some, Option.bind_eq_bind, Option.bind_some]
      rw [ih others, Nat.mul_comm]
      rfl
  rw [digitsValue?, joinDigits_of_digits Nat.toDigits_ne_nil digits, Option.bind_some, fold digits,
    Nat.ofDigitChars_ten_toDigits]

theorem dropMargins_of_digits {cs : List Char} (h : ∀ c ∈ cs, c.isDigit = true ∨ c = '-') : dropMargins cs = cs := by
  have solid {cs : List Char} (h : ∀ c ∈ cs, c.isDigit = true ∨ c = '-') : cs.dropWhile isMargin = cs := by
    cases cs with
    | nil => rfl
    | cons c rest =>
      refine List.dropWhile_cons_of_neg ?_
      rcases h c List.mem_cons_self with digit | rfl
      · have bounds := digit_bounds digit
        simp only [isMargin, isBlank]
        grind
      · decide
  rw [dropMargins, solid h, solid (by simpa using h), List.reverse_reverse]

theorem dropBaseMark_ten (cs : List Char) : dropBaseMark 10 cs = cs := by
  unfold dropBaseMark
  split
  · rw [if_neg (by simp)]
  · rfl

theorem splitSign_toDigits (n : Nat) : splitSign (Nat.toDigits 10 n) = (false, Nat.toDigits 10 n) := by
  have digits : ∀ c ∈ Nat.toDigits 10 n, c.isDigit = true := fun c hc =>
    Nat.isDigit_of_mem_toDigits (by decide) (by decide) hc
  unfold splitSign
  split
  · rename_i rest spelled
    cases digits '-' (spelled ▸ List.mem_cons_self)
  · rename_i rest spelled
    cases digits '+' (spelled ▸ List.mem_cons_self)
  · rfl

theorem readInt?_intText (n : Int) : readInt? 10 (intText n) = some n := by
  rw [readInt?, dropMargins_of_digits fun c => isDigit_of_mem_intText]
  cases n with
  | ofNat n =>
    rw [intText, splitSign_toDigits]
    dsimp only
    rw [dropBaseMark_ten, digitsValue?_toDigits]
    rfl
  | negSucc n =>
    rw [intText, splitSign]
    dsimp only
    rw [dropBaseMark_ten, digitsValue?_toDigits]
    rfl

/-- What may stand behind a number: nothing, or a character that no number goes on with. -/
def EndsNumber (rest : List Char) : Prop :=
  ∀ c ∈ rest.head?, isNumberChar c = false

theorem readNumber_intText (n : Int) {rest : List Char} (ends : EndsNumber rest) :
    readNumber (intText n ++ rest) = some (.int n, rest) := by
  have inside : ∀ c ∈ intText n, isNumberChar c = true := fun c hc => by
    rcases isDigit_of_mem_intText hc with digit | rfl
    · simp [isNumberChar, digit]
    · rfl
  have spelled : (intText n ++ rest).takeWhile isNumberChar = intText n := by
    rw [List.takeWhile_append_of_pos inside]
    cases rest with
    | nil => simp
    | cons c rest => rw [List.takeWhile_cons_of_neg (by simp [ends c rfl]), List.append_nil]
  have whole : (intText n).all (fun c => c.isDigit || c = '-') = true :=
    List.all_eq_true.mpr fun c hc => by simpa using isDigit_of_mem_intText hc
  rw [readNumber, spelled, if_pos whole, readInt?_intText, List.drop_left]
  rfl

end SolidityLint.Json

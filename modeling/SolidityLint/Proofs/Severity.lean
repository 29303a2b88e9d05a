import Mathlib.Data.List.Forall2
import Mathlib.Data.List.TakeWhile
import SolidityLint.Proofs.Json.Pieces
import SolidityLint.Proofs.Text.LowerCase
import SolidityLint.Severity

/-! How severities are written. Of all values only texts name a severity, and a text does so if it is the word of the
    severity, each letter small or a capital of ASCII, with white space around it or not. The words of severities have
    no letter that lower-casing makes of characters outside ASCII; what is not a text is shown with a first character
    that no such word has, or as an infinity. -/

namespace SolidityLint

open Text

/-! ### White space at the ends -/

theorem Text.isBlank_eq_false {c : Char} (low : 33 ≤ c.toNat) (high : c.toNat ≤ 126) : isBlank c = false := by
  simp only [isBlank, Bool.or_eq_false_iff, Bool.and_eq_false_iff, decide_eq_false_iff_not]
  omega

theorem CodePoint.isBlank_lowerAscii (point : CodePoint) : point.lowerAscii.isBlank = point.isBlank := by
  cases point with
  | half offset => rfl
  | char c =>
    rcases toLower_cases c with ⟨same, -⟩ | ⟨low, high, lowered⟩
    · exact congrArg Text.isBlank same
    · have capital : Text.isBlank c = false := Text.isBlank_eq_false (by omega) (by omega)
      have small : Text.isBlank c.toLower = false := Text.isBlank_eq_false (by omega) (by omega)
      exact small.trans capital.symm

namespace RawText

theorem trim_lowerAscii (s : RawText) : s.lowerAscii.trim = s.trim.lowerAscii := by
  have blank : CodePoint.isBlank ∘ CodePoint.lowerAscii = CodePoint.isBlank := funext CodePoint.isBlank_lowerAscii
  simp only [trim, lowerAscii, List.dropWhile_map, ← List.map_reverse, blank]

theorem trim_append {before s after : RawText} (blank : before.isBlank = true) (blank' : after.isBlank = true) :
    (before ++ s ++ after).trim = s.trim := by
  have front : ∀ point ∈ before.points, point.isBlank = true := List.all_eq_true.mp blank
  have back : ∀ point ∈ after.points, point.isBlank = true := List.all_eq_true.mp blank'
  have back' : ∀ point ∈ after.points.reverse, point.isBlank = true := fun point hp => back point (List.mem_reverse.mp hp)
  rw [trim, trim, points_append, points_append, List.append_assoc, List.dropWhile_append_of_pos front,
    List.dropWhile_append]
  split
  · rename_i all
    rw [List.isEmpty_iff.mp all, List.dropWhile_eq_nil_iff.mpr back]
  · rw [List.reverse_append, List.dropWhile_append_of_pos back']

theorem exists_trim_eq_cons {s : RawText} {point : CodePoint} {rest : List CodePoint} (h : s.points = point :: rest)
    (solid : point.isBlank = false) : ∃ more, s.trim.points = point :: more := by
  have own : [point].dropWhile CodePoint.isBlank = [point] := List.dropWhile_cons_of_neg (by simp [solid])
  rw [trim, h, List.dropWhile_cons_of_neg (by simp [solid]), List.reverse_cons, List.dropWhile_append, own]
  split
  · exact ⟨[], rfl⟩
  · exact ⟨_, by rw [List.reverse_append]; rfl⟩

end RawText

/-! ### Words in any case -/

/-- Whether a code point writes a letter: as it is, or as a capital. -/
def CodePoint.Writes (point : CodePoint) (letter : Char) : Prop :=
  point = .char letter ∨ point = .char letter.toUpper

instance (point : CodePoint) (letter : Char) : Decidable (point.Writes letter) :=
  inferInstanceAs (Decidable (_ ∨ _))

theorem Text.toNat_toUpper {letter : Char} (small : letter.isLower = true) :
    letter.toUpper.toNat = letter.toNat - 32 := by
  have bounds := toNat_of_isLower small
  have back : ('A'.val - 'a'.val).toNat = 2 ^ 32 - 32 := by decide +kernel
  have sum : letter.toUpper.toNat = (letter.val + ('A'.val - 'a'.val)).toNat := by
    rw [show letter.toUpper = _ from dif_pos (isLower_iff.mp small)]
    rfl
  rw [UInt32.toNat_add, back] at sum
  have number : letter.val.toNat = letter.toNat := rfl
  omega

theorem Text.toLower_eq_iff {c letter : Char} (small : letter.isLower = true) :
    c.toLower = letter ↔ c = letter ∨ c = letter.toUpper := by
  have bounds := toNat_of_isLower small
  have capital := toNat_toUpper small
  constructor
  · rintro rfl
    rcases toLower_cases c with ⟨same, -⟩ | ⟨-, -, lowered⟩
    · exact Or.inl same.symm
    · exact Or.inr (Char.toNat_inj.mp (by omega))
  · rintro (rfl | rfl)
    · rcases toLower_cases c with ⟨same, -⟩ | ⟨-, high, -⟩
      · exact same
      · omega
    · rcases toLower_cases letter.toUpper with ⟨-, outside⟩ | ⟨-, -, lowered⟩
      · omega
      · exact Char.toNat_inj.mp (by omega)

theorem CodePoint.forall₂_writes_iff {points : List CodePoint} {word : List Char} (plain : ∀ d ∈ word, IsPlainSmall d) :
    List.Forall₂ Writes points word ↔ ∃ cs : List Char, points = cs.map .char ∧ cs.map Char.toLower = word := by
  induction word generalizing points with
  | nil => simp
  | cons letter word ih =>
    obtain ⟨own, others⟩ := List.forall_mem_cons.mp plain
    rw [List.forall₂_cons_right_iff]
    constructor
    · rintro ⟨point, rest, written, all, rfl⟩
      obtain ⟨cs, rfl, rfl⟩ := (ih others).mp all
      rcases written with rfl | rfl
      · exact ⟨letter :: cs, rfl, by rw [List.map_cons, (toLower_eq_iff own.1).mpr (Or.inl rfl)]⟩
      · exact ⟨letter.toUpper :: cs, rfl, by rw [List.map_cons, (toLower_eq_iff own.1).mpr (Or.inr rfl)]⟩
    · rintro ⟨cs, rfl, same⟩
      obtain ⟨c, cs, rfl, lowered, rfl⟩ := List.map_eq_cons_iff.mp same
      have written := ((toLower_eq_iff own.1).mp lowered).imp (congrArg CodePoint.char) (congrArg CodePoint.char)
      exact ⟨.char c, cs.map .char, written, (ih others).mpr ⟨cs, rfl, rfl⟩, rfl⟩

namespace Severity

variable {severity : Severity}

theorem isPlainSmall_of_mem_word : ∀ d ∈ severity.word.toList, IsPlainSmall d := by
  cases severity <;> simp [word, IsPlainSmall]

theorem ofWord?_eq_some_iff {word : RawText} : ofWord? word = some severity ↔ word = severity.word := by
  constructor
  · intro found
    have same := List.find?_some found
    exact (of_decide_eq_true same).symm
  · rintro rfl
    cases severity <;> decide

/-- The texts that name a severity. -/
theorem ofValue?_str_iff {s : RawText} :
    ofValue? (.str s) = some severity ↔ List.Forall₂ CodePoint.Writes s.trim.points severity.word.toList := by
  rw [ofValue?, ofWord?_eq_some_iff, CodePoint.forall₂_writes_iff isPlainSmall_of_mem_word]
  refine (RawText.lower_eq_ofChars_iff isPlainSmall_of_mem_word).trans (exists_congr fun cs => and_congr_left fun _ => ?_)
  exact ⟨congrArg RawText.points, RawText.points_injective⟩

/-! ### Values that are no text -/

/-- The text is empty, or starts with a character that neither is white space nor starts the word of a severity. -/
def StartsApart (cs : List Char) : Prop :=
  ∀ c ∈ cs.head?, Text.isBlank c = false ∧ c.toLower ∉ ['e', 'w', 'i']

theorem startsApart_cons {c : Char} (h : Text.isBlank c = false ∧ c.toLower ∉ ['e', 'w', 'i']) (rest : List Char) :
    StartsApart (c :: rest) := by
  rintro d ⟨⟩
  exact h

theorem startsApart_of_head {cs : List Char} (h : ∀ c ∈ cs.head?, c.isDigit = true ∨ c = '-') : StartsApart cs := by
  intro c hc
  rcases h c hc with digit | rfl
  · have bounds := Json.digit_bounds digit
    rcases toLower_cases c with ⟨same, -⟩ | ⟨low, -, -⟩
    · refine ⟨Text.isBlank_eq_false (by omega) (by omega), fun starts => ?_⟩
      rw [same] at starts
      simp only [List.mem_cons, List.not_mem_nil, or_false] at starts
      rcases starts with rfl | rfl | rfl <;> exact absurd bounds (by decide)
    · omega
  · decide

theorem exists_word_eq_cons (severity : Severity) :
    ∃ letter more, severity.word.toList = letter :: more ∧ letter ∈ ['e', 'w', 'i'] := by
  cases severity <;> exact ⟨_, _, rfl, by decide⟩

theorem ofWord?_of_startsApart {cs : List Char} (apart : StartsApart cs) :
    ofWord? (RawText.ofChars cs).trim.lower = none := by
  rw [Option.eq_none_iff_forall_ne_some]
  intro severity named
  obtain ⟨cs', trimmed, lowered⟩ :=
    (RawText.lower_eq_ofChars_iff isPlainSmall_of_mem_word).mp (ofWord?_eq_some_iff.mp named)
  obtain ⟨letter, more, spelled, first⟩ := exists_word_eq_cons severity
  rw [spelled] at lowered
  obtain ⟨c, rest, rfl, small, -⟩ := List.map_eq_cons_iff.mp lowered
  cases cs with
  | nil => cases congrArg RawText.points trimmed
  | cons d others =>
    obtain ⟨solid, other⟩ := apart d rfl
    obtain ⟨behind, kept⟩ := RawText.exists_trim_eq_cons (s := .ofChars (d :: others)) rfl solid
    rw [trimmed] at kept
    obtain ⟨same, -⟩ := List.cons.inj kept
    rw [← CodePoint.char.inj same, small] at other
    exact other first

/-- A decimal starts with a digit. -/
theorem isDigit_of_head_decimalText {digits : List Char} (h : ∀ c ∈ digits, c.isDigit = true) (point : Int) :
    ∀ c ∈ (Binary64.decimalText digits point).head?, c.isDigit = true := by
  have own : ∀ c ∈ digits.head?, c.isDigit = true := fun c hc => h c (List.mem_of_mem_head? hc)
  unfold Binary64.decimalText
  split
  · split
    · rintro c ⟨⟩
      rfl
    · obtain ⟨p, places⟩ : ∃ p, point.toNat = p + 1 := ⟨point.toNat - 1, by omega⟩
      simp only [places]
      split
      · cases digits with
        | nil =>
          rintro c ⟨⟩
          rfl
        | cons d rest => exact own
      · cases digits with
        | nil => rename_i long; exact absurd (Nat.zero_le _) long
        | cons d rest => exact own
  · split
    · exact nofun
    · exact own
    · exact own

theorem startsApart_text (x : Binary64) : x.text = "inf".toList ∨ StartsApart x.text := by
  unfold Binary64.text
  split
  · exact Or.inr (startsApart_cons (by decide) _)
  · dsimp only
    split
    · exact Or.inr (startsApart_cons (by decide) _)
    · split
      · exact Or.inl rfl
      · split
        · exact Or.inr (startsApart_cons (by decide) _)
        · refine Or.inr (startsApart_of_head fun c hc => Or.inl (isDigit_of_head_decimalText (fun d hd => ?_) _ c hc))
          have written := (List.dropWhile_sublist _).subset (List.mem_reverse.mp hd)
          exact Nat.isDigit_of_mem_toDigits (by decide) (by decide) (List.mem_reverse.mp written)

theorem isDigit_of_mem_padded {width n : Nat} {c : Char} (h : c ∈ padded width n) : c.isDigit = true := by
  rcases List.mem_append.mp h with filled | written
  · rw [(List.mem_replicate.mp filled).2]
    rfl
  · exact Nat.isDigit_of_mem_toDigits (by decide) (by decide) written

theorem startsApart_day_text (d : Day) (rest : List Char) : StartsApart (d.text ++ rest) := by
  have written : padded 4 d.year ≠ [] := fun none => Nat.toDigits_ne_nil (List.append_eq_nil_iff.mp none).2
  obtain ⟨first, more, year⟩ := List.exists_cons_of_ne_nil written
  have digit : first.isDigit = true := isDigit_of_mem_padded (year ▸ List.mem_cons_self)
  refine startsApart_of_head fun c hc => Or.inl ?_
  rw [Day.text, year] at hc
  obtain rfl : first = c := Option.some.inj hc
  exact digit

/-- What is no text names no severity. -/
theorem ofValue?_eq_none {value : Value} (noText : ∀ s, value ≠ .str s) : ofValue? value = none := by
  rw [ofValue?, spelling]
  cases value with
  | str s => exact absurd rfl (noText s)
  | bool b => cases b <;> exact ofWord?_of_startsApart (startsApart_cons (by decide) _)
  | int n =>
    exact ofWord?_of_startsApart (startsApart_of_head fun c hc => Json.isDigit_of_mem_intText (List.mem_of_mem_head? hc))
  | float x origin =>
    change ofWord? (RawText.ofChars x.text).trim.lower = none
    rcases startsApart_text x with infinite | apart
    · rw [infinite]
      decide +kernel
    · exact ofWord?_of_startsApart apart
  | day d =>
    have apart := startsApart_day_text d []
    rw [List.append_nil] at apart
    exact ofWord?_of_startsApart apart
  | moment t =>
    refine ofWord?_of_startsApart ?_
    simp only [Moment.text, List.append_assoc]
    exact startsApart_day_text t.day _
  | set members => cases members <;> exact ofWord?_of_startsApart (startsApart_cons (by decide) _)
  | _ => exact ofWord?_of_startsApart (startsApart_cons (by decide) _)

end Severity

/-- A value names a severity just if it is a text that is, without the white space at its ends, the word of the severity
    with each letter small or a capital of ASCII. So white space around a text and the case of letters of ASCII in it
    change neither whether it names a severity and which one, nor what is said if it names none. -/
theorem severity_spelling :
    (∀ value severity, Severity.ofValue? value = some severity ↔
      ∃ s, value = .str s ∧ List.Forall₂ CodePoint.Writes s.trim.points severity.word.toList) ∧
    (∀ before s after : RawText, before.isBlank = true → after.isBlank = true →
      Severity.ofValue? (.str (before ++ s ++ after)) = Severity.ofValue? (.str s) ∧
        Severity.unknownMessage (.str (before ++ s ++ after)) = Severity.unknownMessage (.str s)) ∧
    ∀ s t : RawText, s.lowerAscii = t.lowerAscii →
      Severity.ofValue? (.str s) = Severity.ofValue? (.str t) ∧
        Severity.unknownMessage (.str s) = Severity.unknownMessage (.str t) := by
  have spelled {s t : RawText} (same : s.trim.lower = t.trim.lower) :
      Severity.ofValue? (.str s) = Severity.ofValue? (.str t) ∧
        Severity.unknownMessage (.str s) = Severity.unknownMessage (.str t) := by
    have spelling : Severity.spelling (.str s) = Severity.spelling (.str t) := same
    rw [Severity.ofValue?, Severity.unknownMessage, spelling]
    exact ⟨rfl, rfl⟩
  refine ⟨fun value severity => ⟨fun named => ?_, ?_⟩, fun before s after blank blank' => spelled ?_,
    fun s t same => spelled (RawText.lower_congr ?_)⟩
  · by_cases text : ∃ s, value = .str s
    · obtain ⟨s, rfl⟩ := text
      exact ⟨s, rfl, Severity.ofValue?_str_iff.mp named⟩
    · rw [Severity.ofValue?_eq_none fun s same => text ⟨s, same⟩] at named
      cases named
  · rintro ⟨s, rfl, written⟩
    exact Severity.ofValue?_str_iff.mpr written
  · rw [RawText.trim_append blank blank']
  · rw [← RawText.trim_lowerAscii, same, RawText.trim_lowerAscii]

/-- A word in mixed case with white space around it, and words with a character that only looks like a letter of ASCII
    or that is lowered to one. -/
theorem severity_spelling_padded :
    Severity.ofValue? (.str ("\u2003\n" ++ "WarNing" ++ "\x1f")) = some .warning ∧
      RawText.isBlank "\u2003\n" = true ∧ RawText.isBlank "\x1f" = true ∧
      RawText.lowerAscii "WarNing" = RawText.lowerAscii "wARNING" ∧
      Severity.ofValue? (.str ("\u2003\n" ++ "WarNing" ++ "\x1f")) = Severity.ofValue? (.str "WarNing") ∧
      Severity.ofValue? (.str "WarNing") = Severity.ofValue? (.str "wARNING") ∧
      Severity.ofValue? (.str "\u0130NFO") = none ∧ Severity.ofValue? (.str "\uff49nfo") = none := by
  obtain ⟨accepted, padded, cased⟩ := severity_spelling
  have blank : RawText.isBlank "\u2003\n" = true := by decide +kernel
  have blank' : RawText.isBlank "\x1f" = true := by decide +kernel
  have same : RawText.lowerAscii "WarNing" = RawText.lowerAscii "wARNING" := by decide +kernel
  have named := (accepted (.str ("\u2003\n" ++ "WarNing" ++ "\x1f")) .warning).mpr ⟨_, rfl, by decide +kernel⟩
  refine ⟨named, blank, blank', same, (padded _ _ _ blank blank').1, (cased _ _ same).1, ?_, ?_⟩
  · decide +kernel
  · decide +kernel

end SolidityLint

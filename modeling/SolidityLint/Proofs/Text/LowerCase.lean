import Mathlib.Data.List.Basic
import SolidityLint.Text.LowerCase

/-! Lower-casing and the letters of ASCII. Characters outside ASCII become none of its small letters, except that the
    sign of the kelvin becomes a `k`; so a word of other small letters comes from the same word in ASCII only, in small
    letters and capitals. And texts that differ in the case of ASCII letters only become the same: whether a sigma ends a
    word does not depend on that case either. -/

namespace SolidityLint

namespace Text

variable {before cs word : List Char} {c : Char}

/-- A small letter of ASCII to which no character outside ASCII is lowered. -/
def IsPlainSmall (c : Char) : Prop :=
  c.isLower = true ∧ c ≠ 'k'

/-! ### Letters -/

theorem isUpper_iff : c.isUpper = true ↔ 'A' ≤ c ∧ c ≤ 'Z' :=
  decide_eq_true_iff

theorem isLower_iff : c.isLower = true ↔ 'a' ≤ c ∧ c ≤ 'z' :=
  Bool.and_eq_true_iff.trans (and_congr decide_eq_true_iff decide_eq_true_iff)

/-- Only capitals of ASCII have another small letter. -/
theorem toLower_cases (c : Char) :
    c.toLower = c ∧ (c.toNat < 65 ∨ 90 < c.toNat) ∨
      65 ≤ c.toNat ∧ c.toNat ≤ 90 ∧ c.toLower.toNat = c.toNat + 32 := by
  by_cases capital : c.val ≥ 'A'.val ∧ c.val ≤ 'Z'.val
  · have low : 65 ≤ c.toNat := UInt32.le_iff_toNat_le.mp capital.1
    have high : c.toNat ≤ 90 := UInt32.le_iff_toNat_le.mp capital.2
    have sum : c.toLower.toNat = (c.toNat + 32) % 2 ^ 32 := by
      rw [show c.toLower = _ from dif_pos capital]
      exact UInt32.toNat_add c.val 32
    exact Or.inr ⟨low, high, by omega⟩
  · refine Or.inl ⟨dif_neg capital, ?_⟩
    by_contra inside
    have low : 65 ≤ c.toNat := by omega
    have high : c.toNat ≤ 90 := by omega
    exact capital ⟨UInt32.le_iff_toNat_le.mpr low, UInt32.le_iff_toNat_le.mpr high⟩

theorem toLower_of_not_ascii (h : 128 ≤ c.toNat) : c.toLower = c := by
  rcases toLower_cases c with ⟨same, -⟩ | ⟨-, high, -⟩
  · exact same
  · omega

theorem toNat_of_isLower (h : c.isLower = true) : 97 ≤ c.toNat ∧ c.toNat ≤ 122 := by
  obtain ⟨low, high⟩ := isLower_iff.mp h
  exact ⟨UInt32.le_iff_toNat_le.mp low, UInt32.le_iff_toNat_le.mp high⟩

/-- Two characters with the same small letter are the same, or both letters of ASCII. -/
theorem eq_or_ascii_of_toLower_eq {d : Char} (h : c.toLower = d.toLower) : c = d ∨ c.toNat < 128 ∧ d.toNat < 128 := by
  have numbers := congrArg Char.toNat h
  rcases toLower_cases c with ⟨same, -⟩ | ⟨low, high, lowered⟩ <;>
    rcases toLower_cases d with ⟨same', -⟩ | ⟨low', high', lowered'⟩
  · exact Or.inl (same.symm.trans (h.trans same'))
  · rw [same] at numbers
    omega
  · rw [same'] at numbers
    omega
  · omega

theorem lowerChar_of_ascii (h : c.toNat < 128) : lowerChar c = c.toLower :=
  if_pos h

theorem capitalRuns_base : ∀ run ∈ capitalRuns, 128 ≤ run.2.2.2 ∨ run = (0x212A, 0x212A, 1, 0x6B) := by
  decide +kernel

theorem not_isPlainSmall_lowerChar (h : 128 ≤ c.toNat) : ¬IsPlainSmall (lowerChar c) := by
  rintro ⟨small, noK⟩
  have bounds := toNat_of_isLower small
  rw [lowerChar, if_neg (by omega)] at bounds noK
  split at bounds
  · rename_i run found
    rcases capitalRuns_base run (List.mem_of_find?_eq_some found) with far | rfl
    · by_cases valid : (run.2.2.2 + (c.toNat - run.1)).isValidChar
      · rw [show Char.ofNat _ = _ from dif_pos valid] at bounds
        have code : 97 ≤ run.2.2.2 + (c.toNat - run.1) ∧ run.2.2.2 + (c.toNat - run.1) ≤ 122 := bounds
        omega
      · rw [show Char.ofNat _ = _ from dif_neg valid] at bounds
        exact absurd bounds (by decide)
    · have inside := List.find?_some found
      simp only [inRun, Bool.and_eq_true, decide_eq_true_eq] at inside
      have kelvin : c.toNat = 0x212A := by omega
      simp only [kelvin] at noK
      exact noK rfl
  · omega

/-! ### Texts -/

/-- What a character between two others becomes. -/
def lowered (before : List Char) (c : Char) (rest : List Char) : List Char :=
  if c = 'Σ' then [if nextIsCased before && !nextIsCased rest then 'ς' else 'σ']
  else if c = 'İ' then ['i', '\u0307']
  else [lowerChar c]

theorem lowerFrom_eq_append (before done cs : List Char) :
    lowerFrom before done cs = done.reverse ++ lowerFrom before [] cs := by
  induction cs generalizing before done with
  | nil => simp [lowerFrom]
  | cons c rest ih =>
    rw [lowerFrom, ih, lowerFrom, ih (c :: before) (_ ++ [])]
    simp

theorem lowerFrom_cons (before : List Char) (c : Char) (rest : List Char) :
    lowerFrom before [] (c :: rest) = lowered before c rest ++ lowerFrom (c :: before) [] rest := by
  rw [lowerFrom, lowerFrom_eq_append, List.append_nil]
  congr 1
  rw [lowered]
  split
  · rfl
  · split <;> rfl

theorem lowered_of_ascii (h : c.toNat < 128) (rest : List Char) : lowered before c rest = [c.toLower] := by
  rw [lowered, if_neg, if_neg, lowerChar_of_ascii h]
  · rintro rfl
    exact absurd h (by decide)
  · rintro rfl
    exact absurd h (by decide)

theorem exists_mem_lowered (before : List Char) (h : 128 ≤ c.toNat) (rest : List Char) :
    ∃ d ∈ lowered before c rest, ¬IsPlainSmall d := by
  rw [lowered]
  split
  · refine ⟨_, List.mem_singleton_self _, fun plain => ?_⟩
    have bounds := toNat_of_isLower plain.1
    split at bounds
    · exact absurd bounds (by decide)
    · exact absurd bounds (by decide)
  · split
    · exact ⟨'\u0307', by simp, fun plain => absurd plain.1 (by decide)⟩
    · exact ⟨_, List.mem_singleton_self _, not_isPlainSmall_lowerChar h⟩

theorem lowerFrom_eq_iff (plain : ∀ d ∈ word, IsPlainSmall d) :
    lowerFrom before [] cs = word ↔ cs.map Char.toLower = word := by
  induction cs generalizing before word with
  | nil => rfl
  | cons c rest ih =>
    rw [lowerFrom_cons, List.map_cons]
    by_cases ascii : c.toNat < 128
    · rw [lowered_of_ascii ascii, List.singleton_append]
      cases word with
      | nil => simp
      | cons d more => rw [List.cons.injEq, List.cons.injEq, ih (List.forall_mem_cons.mp plain).2]
    · -- Neither way does a character outside ASCII become a letter of the word.
      have far : 128 ≤ c.toNat := by omega
      constructor
      · rintro rfl
        obtain ⟨d, hd, other⟩ := exists_mem_lowered before far rest
        exact absurd (plain d (List.mem_append_left _ hd)) other
      · rintro rfl
        have small := (plain _ List.mem_cons_self).1
        rw [toLower_of_not_ascii far] at small
        have bounds := toNat_of_isLower small
        omega

theorem lower_eq_iff (plain : ∀ d ∈ word, IsPlainSmall d) : lower cs = word ↔ cs.map Char.toLower = word :=
  lowerFrom_eq_iff plain

/-! ### Texts that differ in the case of ASCII letters -/

theorem letters_mem_casedRanges : (65, 90) ∈ casedRanges ∧ (97, 122) ∈ casedRanges := by
  decide +kernel

theorem letters_apart_caseIgnorableRanges :
    ∀ range ∈ caseIgnorableRanges, range.2 < 65 ∨ 90 < range.1 ∧ range.2 < 97 ∨ 122 < range.1 := by
  decide +kernel

theorem inRanges_casedRanges_toLower (c : Char) :
    inRanges casedRanges c.toLower.toNat = inRanges casedRanges c.toNat := by
  rcases toLower_cases c with ⟨same, -⟩ | ⟨low, high, lowered⟩
  · rw [same]
  · have capital : inRanges casedRanges c.toNat = true :=
      inRanges_iff.mpr ⟨_, letters_mem_casedRanges.1, low, high⟩
    have small : inRanges casedRanges c.toLower.toNat = true :=
      inRanges_iff.mpr ⟨_, letters_mem_casedRanges.2, by omega, by omega⟩
    rw [capital, small]

theorem inRanges_caseIgnorableRanges_toLower (c : Char) :
    inRanges caseIgnorableRanges c.toLower.toNat = inRanges caseIgnorableRanges c.toNat := by
  rcases toLower_cases c with ⟨same, -⟩ | ⟨low, high, lowered⟩
  · rw [same]
  · rw [Bool.eq_iff_iff, inRanges_iff, inRanges_iff]
    refine exists_congr fun range => and_congr_right fun there => ?_
    have apart := letters_apart_caseIgnorableRanges range there
    omega

theorem nextIsCased_map_toLower (cs : List Char) : nextIsCased (cs.map Char.toLower) = nextIsCased cs := by
  have ignored : (fun c => inRanges caseIgnorableRanges c.toNat) ∘ Char.toLower =
      fun c => inRanges caseIgnorableRanges c.toNat :=
    funext inRanges_caseIgnorableRanges_toLower
  rw [nextIsCased, nextIsCased, List.dropWhile_map, ignored]
  cases cs.dropWhile fun c => inRanges caseIgnorableRanges c.toNat with
  | nil => rfl
  | cons c rest => exact inRanges_casedRanges_toLower c

theorem lowered_congr {before' rest rest' : List Char} {c' : Char} (hb : before.map Char.toLower = before'.map Char.toLower)
    (hc : c.toLower = c'.toLower) (hr : rest.map Char.toLower = rest'.map Char.toLower) :
    lowered before c rest = lowered before' c' rest' := by
  rcases eq_or_ascii_of_toLower_eq hc with rfl | ⟨ascii, ascii'⟩
  · have cased : nextIsCased before = nextIsCased before' := by
      rw [← nextIsCased_map_toLower, hb, nextIsCased_map_toLower]
    have cased' : nextIsCased rest = nextIsCased rest' := by
      rw [← nextIsCased_map_toLower, hr, nextIsCased_map_toLower]
    rw [lowered, lowered, cased, cased']
  · rw [lowered_of_ascii ascii, lowered_of_ascii ascii', hc]

theorem lowerFrom_congr {before' cs' : List Char} (hb : before.map Char.toLower = before'.map Char.toLower)
    (h : cs.map Char.toLower = cs'.map Char.toLower) : lowerFrom before [] cs = lowerFrom before' [] cs' := by
  induction cs generalizing before before' cs' with
  | nil =>
    obtain rfl : cs' = [] := by simpa using h.symm
    rfl
  | cons c rest ih =>
    cases cs' with
    | nil => cases h
    | cons c' rest' =>
      obtain ⟨hc, hr⟩ := List.cons.inj h
      have longer : (c :: before).map Char.toLower = (c' :: before').map Char.toLower := by simp [hb, hc]
      rw [lowerFrom_cons, lowerFrom_cons, lowered_congr hb hc hr, ih longer hr]

theorem lower_congr {cs' : List Char} (h : cs.map Char.toLower = cs'.map Char.toLower) : lower cs = lower cs' :=
  lowerFrom_congr rfl h

end Text

/-! ### Texts with halves of pairs -/

/-- A code point with a letter of ASCII made small. -/
def CodePoint.lowerAscii : CodePoint → CodePoint
  | .char c => .char c.toLower
  | .half offset => .half offset

namespace RawText

open Text CodePoint

/-- The text with the letters of ASCII made small, and nothing else. -/
def lowerAscii (s : RawText) : RawText :=
  ⟨s.points.map CodePoint.lowerAscii⟩

theorem mapStretchesFrom_eq_iff {f : List Char → List Char} {before word : List Char} {points : List CodePoint} :
    mapStretchesFrom f before points = word.map .char ↔ ∃ cs, points = cs.map .char ∧ f (before.reverse ++ cs) = word := by
  have inj {cs cs' : List Char} : cs.map char = cs'.map char ↔ cs = cs' :=
    List.map_inj_right fun _ _ => CodePoint.char.inj
  induction points generalizing before with
  | nil =>
    rw [mapStretchesFrom, inj]
    simp
  | cons point rest ih =>
    cases point with
    | char c =>
      rw [mapStretchesFrom]
      refine ih.trans ⟨?_, ?_⟩
      · rintro ⟨cs, rfl, same⟩
        exact ⟨c :: cs, rfl, by simpa using same⟩
      · rintro ⟨cs, here, same⟩
        obtain ⟨d, cs, rfl, ⟨⟩, rfl⟩ := List.map_eq_cons_iff.mp here.symm
        exact ⟨cs, rfl, by simpa using same⟩
    | half offset =>
      rw [mapStretchesFrom]
      constructor
      · intro same
        have inside : CodePoint.half offset ∈ word.map char := by
          rw [← same]
          simp
        obtain ⟨_, _, ⟨⟩⟩ := List.mem_map.mp inside
      · rintro ⟨cs, here, -⟩
        obtain ⟨_, _, _, ⟨⟩, _⟩ := List.map_eq_cons_iff.mp here.symm

theorem lower_eq_ofChars_iff {s : RawText} {word : List Char} (plain : ∀ d ∈ word, IsPlainSmall d) :
    s.lower = ofChars word ↔ ∃ cs, s = ofChars cs ∧ cs.map Char.toLower = word := by
  have points : s.lower = ofChars word ↔ mapStretchesFrom Text.lower [] s.points = word.map .char :=
    ⟨congrArg RawText.points, points_injective⟩
  rw [points, mapStretchesFrom_eq_iff]
  refine exists_congr fun cs => and_congr ⟨points_injective, congrArg RawText.points⟩ ?_
  exact lower_eq_iff plain

theorem mapStretchesFrom_lower_congr {before before' : List Char} {points points' : List CodePoint}
    (hb : before.map Char.toLower = before'.map Char.toLower)
    (h : points.map CodePoint.lowerAscii = points'.map CodePoint.lowerAscii) :
    mapStretchesFrom Text.lower before points = mapStretchesFrom Text.lower before' points' := by
  have stretch : Text.lower before.reverse = Text.lower before'.reverse :=
    lower_congr (by rw [List.map_reverse, hb, List.map_reverse])
  induction points generalizing before before' points' with
  | nil =>
    obtain rfl : points' = [] := by simpa using h.symm
    rw [mapStretchesFrom, mapStretchesFrom, stretch]
  | cons point rest ih =>
    cases points' with
    | nil => cases h
    | cons point' rest' =>
      obtain ⟨hp, hr⟩ := List.cons.inj h
      match point, point', hp with
      | .char c, .char c', hp =>
        have hc : c.toLower = c'.toLower := CodePoint.char.inj hp
        have longer : (c :: before).map Char.toLower = (c' :: before').map Char.toLower := by simp [hb, hc]
        rw [mapStretchesFrom, mapStretchesFrom]
        exact ih longer hr (lower_congr (by rw [List.map_reverse, longer, List.map_reverse]))
      | .half offset, .half _, rfl => rw [mapStretchesFrom, mapStretchesFrom, stretch, ih rfl hr rfl]

/-- Texts that differ in the case of ASCII letters only are lowered to the same. -/
theorem lower_congr {s t : RawText} (h : s.lowerAscii = t.lowerAscii) : s.lower = t.lower :=
  points_injective (mapStretchesFrom_lower_congr rfl (congrArg RawText.points h))

end RawText

end SolidityLint

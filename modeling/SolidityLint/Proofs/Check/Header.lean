import Mathlib.Order.Bounds.Basic
import SolidityLint.Proofs.Check.Places
import SolidityLint.Proofs.Declaration.Pieces
import SolidityLint.Proofs.Text.Lines

/-! What is found about licence line and pragma. The licence marker is looked for in the whole text, in the first line
    without the white space around it, and line by line. It has neither a newline nor white space in it, so the three
    agree, and the findings depend only on the indexes of the lines with the marker and of those with a pragma. -/

namespace SolidityLint

open Text Declaration

/-! ### Lines of a kind -/

section

variable {P : List Char → Prop} {p : List Char → Bool} {cs : List Char}

/-- The indexes of the lines of a text that have a property. -/
def linesWith (P : List Char → Prop) (cs : List Char) : Set Nat :=
  {i | ∃ line, (lines cs)[i]? = some line ∧ P line}

theorem linesWith_nonempty_iff : (linesWith P cs).Nonempty ↔ ∃ line ∈ lines cs, P line := by
  constructor
  · rintro ⟨i, line, there, own⟩
    exact ⟨line, List.mem_of_getElem? there, own⟩
  · rintro ⟨line, hl, own⟩
    obtain ⟨i, there⟩ := List.mem_iff_getElem?.mp hl
    exact ⟨i, line, there, own⟩

variable (same : ∀ line, p line = true ↔ P line)

include same

/-- The first line of a kind is the least index. -/
theorem findIdx?_lines_eq_some_iff {i : Nat} : (lines cs).findIdx? p = some i ↔ IsLeast (linesWith P cs) i := by
  rw [List.findIdx?_eq_some_iff_getElem]
  constructor
  · rintro ⟨inside, own, before⟩
    refine ⟨⟨_, List.getElem?_eq_getElem inside, (same _).mp own⟩, ?_⟩
    rintro j ⟨line, there, other⟩
    by_contra early
    obtain ⟨_, rfl⟩ := List.getElem?_eq_some_iff.mp there
    exact before j (Nat.lt_of_not_le early) ((same _).mpr other)
  · rintro ⟨⟨line, there, own⟩, least⟩
    obtain ⟨inside, rfl⟩ := List.getElem?_eq_some_iff.mp there
    refine ⟨inside, (same _).mpr own, fun j early other => ?_⟩
    have late := least ⟨_, List.getElem?_eq_getElem (early.trans inside), (same _).mp other⟩
    exact absurd early (Nat.not_lt.mpr late)

end

/-! ### Three views of the licence marker -/

/-- The indexes of the lines with a licence marker. -/
def licenceLines (cs : List Char) : Set Nat :=
  linesWith ("SPDX-License-Identifier:".toList <:+: ·) cs

/-- The indexes of the lines with a pragma, white space aside. -/
def pragmaLines (cs : List Char) : Set Nat :=
  linesWith ("pragma solidity".toList <+: trim ·) cs

namespace Check

variable {cs : List Char}

theorem hasLicence_iff : hasLicence cs = true ↔ licenceMarker <:+: cs := by
  induction cs with
  | nil => exact iff_of_false (by decide) (by decide)
  | cons c rest ih => rw [hasLicence, Bool.or_eq_true, ih, List.isPrefixOf_iff_prefix, List.infix_cons_iff]

theorem isPragma_iff : isPragma cs = true ↔ "pragma solidity".toList <+: trim cs :=
  List.isPrefixOf_iff_prefix

theorem hasLicence_trim (line : List Char) : hasLicence (trim line) = hasLicence line := by
  have plain : licenceMarker.all (!isBlank ·) = true := by decide
  have word : ∀ c ∈ licenceMarker, isBlank c = false := by simpa using plain
  rw [Bool.eq_iff_iff, hasLicence_iff, hasLicence_iff, infix_trim_iff word]

theorem hasLicence_iff_nonempty : hasLicence cs = true ↔ (licenceLines cs).Nonempty := by
  have word : '\n' ∉ licenceMarker := by decide
  rw [hasLicence_iff, infix_iff_exists_line word, licenceLines, linesWith_nonempty_iff]
  rfl

theorem head?_lines_iff :
    ((lines cs).head?.map fun line => hasLicence (trim line)).getD false = true ↔ 0 ∈ licenceLines cs := by
  have first : 0 ∈ licenceLines cs ↔ ∃ line ∈ (lines cs).head?, licenceMarker <:+: line := by
    rw [List.head?_eq_getElem?]
    rfl
  rw [first]
  cases (lines cs).head? with
  | none => simp
  | some line => simp [hasLicence_trim, hasLicence_iff]

end Check

/-! ### The findings of the pass -/

section

variable (path : RawText) (severities : SeverityMap)

def missingLicence : Finding where
  path := path
  line := 1
  rule := "structure.spdxLicense"
  code := "MissingSPDX"
  message := "Missing SPDX license identifier"
  severity := severities.resolve "structure.spdxLicense"

def licenceBelow : Finding where
  path := path
  line := 1
  rule := "structure.spdxAtTop"
  code := "SPDXNotAtTop"
  message := "SPDX license should be on first line"
  severity := severities.resolve "structure.spdxAtTop"

/-- The finding about a pragma on the line with an index. -/
def earlyPragma (index : Nat) : Finding where
  path := path
  line := index + 1
  rule := "structure.pragmaAfterLicense"
  code := "PragmaBeforeLicense"
  message := "Pragma should come after SPDX license"
  severity := severities.resolve "structure.pragmaAfterLicense"

variable (rules : RuleConfiguration) (cs : List Char)

/-- What is found about the licence line, and when. -/
inductive LicenceFound : List Finding → Prop
  | missing (on : rules.enables .spdxLicense) (none : licenceLines cs = ∅) :
      LicenceFound [missingLicence path severities]
  | below (on : rules.enables .spdxLicense) (top : rules.enables .spdxAtTop) (some : (licenceLines cs).Nonempty)
      (first : 0 ∉ licenceLines cs) : LicenceFound [licenceBelow path severities]
  | nothing (fine : rules.enables .spdxLicense →
      (licenceLines cs).Nonempty ∧ (rules.enables .spdxAtTop → 0 ∈ licenceLines cs)) : LicenceFound []

/-- What is found about the first pragma, and when. -/
inductive PragmaFound : List Finding → Prop
  | early {p m : Nat} (on : rules.enables .pragmaAfterLicense) (pragma : IsLeast (pragmaLines cs) p)
      (licence : IsLeast (licenceLines cs) m) (before : p < m) : PragmaFound [earlyPragma path severities p]
  | nothing (fine : rules.enables .pragmaAfterLicense →
      ∀ p m, IsLeast (pragmaLines cs) p → IsLeast (licenceLines cs) m → m ≤ p) : PragmaFound []

variable {path severities rules cs} {settings : HeaderRules} (h : rules.header = some settings)

include h

theorem enables_of_header {rule : Rule} (own : rule.category = .header) :
    rules.enables rule = (settings.setting rule).isOn :=
  RuleConfiguration.enables_of_settings? (by rw [RuleConfiguration.settings?, h, Option.map_some]) own

theorem licenceFound_licence :
    LicenceFound path severities rules cs ((Check.licence settings cs).map (·.toFinding severities path)) := by
  have licence : rules.enables .spdxLicense = settings.spdxLicense := by
    rw [enables_of_header h rfl, HeaderRules.setting, Setting.isOn_ofSwitch]
  have top : rules.enables .spdxAtTop = settings.spdxAtTop := by
    rw [enables_of_header h rfl, HeaderRules.setting, Setting.isOn_ofSwitch]
  unfold Check.licence
  split
  · rename_i off
    exact .nothing fun on => by simp [← licence, on] at off
  · rename_i on
    have on : rules.enables .spdxLicense = true := by simpa [← licence] using on
    split
    · rename_i missing
      have none : ¬(licenceLines cs).Nonempty := by simpa [← Check.hasLicence_iff_nonempty] using missing
      exact .missing on (Set.not_nonempty_iff_eq_empty.mp none)
    · rename_i there
      have some : (licenceLines cs).Nonempty := by simpa [← Check.hasLicence_iff_nonempty] using there
      split
      · rename_i below
        simp only [Bool.and_eq_true, Bool.not_eq_true', ← Bool.not_eq_true, Check.head?_lines_iff] at below
        exact .below on (top.trans below.1) some below.2
      · rename_i fine
        simp only [Bool.and_eq_true, Bool.not_eq_true', ← Bool.not_eq_true, Check.head?_lines_iff] at fine
        exact .nothing fun _ => ⟨some, fun onTop => not_not.mp fun first => fine ⟨top.symm.trans onTop, first⟩⟩

theorem pragmaFound_pragma :
    PragmaFound path severities rules cs ((Check.pragma settings cs).map (·.toFinding severities path)) := by
  have order : rules.enables .pragmaAfterLicense = settings.pragmaAfterLicense := by
    rw [enables_of_header h rfl, HeaderRules.setting, Setting.isOn_ofSwitch]
  have pragmas {p : Nat} : (lines cs).findIdx? Check.isPragma = some p ↔ IsLeast (pragmaLines cs) p :=
    findIdx?_lines_eq_some_iff fun _ => Check.isPragma_iff
  have licences {m : Nat} : (lines cs).findIdx? Check.hasLicence = some m ↔ IsLeast (licenceLines cs) m :=
    findIdx?_lines_eq_some_iff fun _ => Check.hasLicence_iff
  unfold Check.pragma
  split
  · rename_i off
    exact .nothing fun on => by simp [← order, on] at off
  · rename_i on
    have on : rules.enables .pragmaAfterLicense = true := by simpa [← order] using on
    split
    · rename_i p m pragma licence
      split
      · rename_i before
        exact .early on (pragmas.mp pragma) (licences.mp licence) before
      · rename_i behind
        refine .nothing fun _ p' m' pragma' licence' => ?_
        rw [(pragmas.mp pragma).unique pragma', (licences.mp licence).unique licence'] at behind
        exact Nat.le_of_not_lt behind
    · rename_i missing
      refine .nothing fun _ p m pragma licence => ?_
      exact absurd (licences.mpr licence) (missing p m (pragmas.mpr pragma))

end

theorem exists_findings_header (source : Source) (rules : RuleConfiguration) (severities : SeverityMap) :
    ∃ licence pragma, source.findingsOf rules severities .header = licence ++ pragma ∧
      LicenceFound source.path severities rules source.text.toList licence ∧
      PragmaFound source.path severities rules source.text.toList pragma := by
  rw [source.findingsOf_eq, Category.violations]
  cases h : rules.header with
  | none =>
    have off {rule : Rule} (own : rule.category = .header) : rules.enables rule = false :=
      RuleConfiguration.enables_of_settings?_eq_none (by rw [RuleConfiguration.settings?, h, Option.map_none]) own
    refine ⟨[], [], rfl, .nothing fun on => ?_, .nothing fun on => ?_⟩
    · rw [off rfl] at on
      cases on
    · rw [off rfl] at on
      cases on
  | some settings =>
    exact ⟨_, _, List.map_append, licenceFound_licence h, pragmaFound_pragma h⟩

/-! ### What is found, and when -/

section

variable {path : RawText} {severities : SeverityMap} {rules : RuleConfiguration} {cs : List Char}
  {found : List Finding}

theorem missingLicence_ne_licenceBelow : missingLicence path severities ≠ licenceBelow path severities := by
  simp [missingLicence, licenceBelow]

theorem earlyPragma_ne_missingLicence (p : Nat) : earlyPragma path severities p ≠ missingLicence path severities := by
  simp [missingLicence, earlyPragma]

theorem earlyPragma_ne_licenceBelow (p : Nat) : earlyPragma path severities p ≠ licenceBelow path severities := by
  simp [licenceBelow, earlyPragma]

theorem earlyPragma_inj {p q : Nat} : earlyPragma path severities p = earlyPragma path severities q ↔ p = q := by
  refine ⟨fun same => ?_, congrArg _⟩
  have lines : (p : Int) + 1 = q + 1 := congrArg Finding.line same
  omega

theorem LicenceFound.missing_mem_iff (h : LicenceFound path severities rules cs found) :
    missingLicence path severities ∈ found ↔ rules.enables .spdxLicense ∧ licenceLines cs = ∅ := by
  cases h with
  | missing on none => simp [on, none]
  | below on top some first => simp [missingLicence_ne_licenceBelow, some.ne_empty]
  | nothing fine =>
    refine iff_of_false List.not_mem_nil ?_
    rintro ⟨on, none⟩
    exact (fine on).1.ne_empty none

theorem LicenceFound.below_mem_iff (h : LicenceFound path severities rules cs found) :
    licenceBelow path severities ∈ found ↔
      rules.enables .spdxLicense ∧ rules.enables .spdxAtTop ∧ (licenceLines cs).Nonempty ∧ 0 ∉ licenceLines cs := by
  cases h with
  | missing on none => simp [missingLicence_ne_licenceBelow.symm, none]
  | below on top some first => simp [on, top, some, first]
  | nothing fine =>
    refine iff_of_false List.not_mem_nil ?_
    rintro ⟨on, top, -, first⟩
    exact first ((fine on).2 top)

theorem LicenceFound.eq_of_mem (h : LicenceFound path severities rules cs found) :
    ∀ finding ∈ found, finding = missingLicence path severities ∨ finding = licenceBelow path severities := by
  cases h with
  | missing => exact List.forall_mem_singleton.mpr (Or.inl rfl)
  | below => exact List.forall_mem_singleton.mpr (Or.inr rfl)
  | nothing => exact nofun

theorem LicenceFound.eq_of_empty (h : LicenceFound path severities rules cs found) (on : rules.enables .spdxLicense)
    (none : licenceLines cs = ∅) : found = [missingLicence path severities] := by
  cases h with
  | missing => rfl
  | below _ _ some _ => exact absurd none some.ne_empty
  | nothing fine => exact absurd none (fine on).1.ne_empty

theorem LicenceFound.early_notMem (h : LicenceFound path severities rules cs found) (p : Nat) :
    earlyPragma path severities p ∉ found := by
  intro hm
  rcases h.eq_of_mem _ hm with same | same
  · exact earlyPragma_ne_missingLicence p same
  · exact earlyPragma_ne_licenceBelow p same

theorem PragmaFound.early_mem_iff (h : PragmaFound path severities rules cs found) (p : Nat) :
    earlyPragma path severities p ∈ found ↔ rules.enables .pragmaAfterLicense ∧
      ∃ m, IsLeast (pragmaLines cs) p ∧ IsLeast (licenceLines cs) m ∧ p < m := by
  cases h with
  | @early p' m on pragma licence before =>
    rw [List.mem_singleton, earlyPragma_inj]
    constructor
    · rintro rfl
      exact ⟨on, m, pragma, licence, before⟩
    · rintro ⟨-, -, least, -⟩
      exact least.unique pragma
  | nothing fine =>
    refine iff_of_false List.not_mem_nil ?_
    rintro ⟨on, m, pragma, licence, before⟩
    exact absurd before (Nat.not_lt.mpr (fine on p m pragma licence))

theorem PragmaFound.exists_of_mem (h : PragmaFound path severities rules cs found) :
    ∀ finding ∈ found, ∃ p, finding = earlyPragma path severities p := by
  cases h with
  | early => exact List.forall_mem_singleton.mpr ⟨_, rfl⟩
  | nothing => exact nofun

theorem PragmaFound.eq_nil_of_empty (h : PragmaFound path severities rules cs found) (none : licenceLines cs = ∅) :
    found = [] := by
  cases h with
  | early _ _ licence _ => exact absurd none licence.nonempty.ne_empty
  | nothing => rfl

theorem LicenceFound.codes_sublist (h : LicenceFound path severities rules cs found) :
    (found.map (·.code)).Sublist ["MissingSPDX", "SPDXNotAtTop"] := by
  cases h with
  | missing => exact (List.nil_sublist _).cons_cons _
  | below => exact (List.Sublist.refl _).cons _
  | nothing => exact List.nil_sublist _

theorem PragmaFound.codes_sublist (h : PragmaFound path severities rules cs found) :
    (found.map (·.code)).Sublist ["PragmaBeforeLicense"] := by
  cases h with
  | early => exact List.Sublist.refl _
  | nothing => exact List.nil_sublist _

end

/-- With `licences` for the lines that have the marker and `pragmas` for those that start with the pragma, white space
    aside, there are three findings at most, in this order: the licence is missing, it is not on the first line, and the
    first pragma stands in front of the first licence. A missing licence is then the only finding; with all three rules
    on, a pragma in front of the licence is not the only one; and a licence on the first line leaves nothing to find. -/
theorem header_exact (source : Source) (rules : RuleConfiguration) (severities : SeverityMap) :
    let licences := licenceLines source.text.toList
    let pragmas := pragmaLines source.text.toList
    let found := source.findingsOf rules severities .header
    let missing := missingLicence source.path severities
    let below := licenceBelow source.path severities
    let early := earlyPragma source.path severities
    (found.map (·.code)).Sublist ["MissingSPDX", "SPDXNotAtTop", "PragmaBeforeLicense"] ∧
    (∀ finding ∈ found, finding = missing ∨ finding = below ∨ ∃ p, finding = early p) ∧
    (missing ∈ found ↔ rules.enables .spdxLicense ∧ licences = ∅) ∧
    (below ∈ found ↔
      rules.enables .spdxLicense ∧ rules.enables .spdxAtTop ∧ licences.Nonempty ∧ 0 ∉ licences) ∧
    (∀ p, early p ∈ found ↔
      rules.enables .pragmaAfterLicense ∧ ∃ m, IsLeast pragmas p ∧ IsLeast licences m ∧ p < m) ∧
    (missing ∈ found → found = [missing]) ∧
    (rules.enables .spdxLicense → rules.enables .spdxAtTop → rules.enables .pragmaAfterLicense →
      ∀ p, early p ∈ found → below ∈ found) ∧
    (0 ∈ licences → found = []) := by
  intro licences pragmas found missing below early
  obtain ⟨licence, pragma, same, hl, hp⟩ := exists_findings_header source rules severities
  have parts (finding : Finding) : finding ∈ found ↔ finding ∈ licence ∨ finding ∈ pragma := by
    rw [← List.mem_append, ← same]
  have notPragma {finding : Finding} (ne : ∀ p, early p ≠ finding) : finding ∉ pragma := by
    intro hm
    obtain ⟨p, rfl⟩ := hp.exists_of_mem finding hm
    exact ne p rfl
  have missingIff : missing ∈ found ↔ rules.enables .spdxLicense ∧ licences = ∅ := by
    rw [parts, or_iff_left (notPragma earlyPragma_ne_missingLicence)]
    exact hl.missing_mem_iff
  have belowIff : below ∈ found ↔
      rules.enables .spdxLicense ∧ rules.enables .spdxAtTop ∧ licences.Nonempty ∧ 0 ∉ licences := by
    rw [parts, or_iff_left (notPragma earlyPragma_ne_licenceBelow)]
    exact hl.below_mem_iff
  have earlyIff (p : Nat) : early p ∈ found ↔
      rules.enables .pragmaAfterLicense ∧ ∃ m, IsLeast pragmas p ∧ IsLeast licences m ∧ p < m := by
    rw [parts, or_iff_right (hl.early_notMem p)]
    exact hp.early_mem_iff p
  have kinds : ∀ finding ∈ found, finding = missing ∨ finding = below ∨ ∃ p, finding = early p := by
    intro finding hf
    rcases (parts finding).mp hf with hf | hf
    · exact (hl.eq_of_mem finding hf).imp_right Or.inl
    · exact Or.inr (Or.inr (hp.exists_of_mem finding hf))
  refine ⟨?_, kinds, missingIff, belowIff, earlyIff, fun there => ?_, fun on top order p there => ?_, fun first => ?_⟩
  · have codes := hl.codes_sublist.append hp.codes_sublist
    rwa [← List.map_append, ← same] at codes
  · -- Without a licence nothing stands in front of it.
    obtain ⟨on, none⟩ := missingIff.mp there
    have nothing : pragma = [] := hp.eq_nil_of_empty none
    have alone : licence = [missing] := hl.eq_of_empty on none
    rw [show found = licence ++ pragma from same, alone, nothing, List.append_nil]
  · obtain ⟨-, m, -, licence, before⟩ := (earlyIff p).mp there
    refine belowIff.mpr ⟨on, top, ⟨m, licence.1⟩, fun first => ?_⟩
    exact Nat.not_lt_zero p (before.trans_le (licence.2 first))
  · rw [List.eq_nil_iff_forall_not_mem]
    intro finding hf
    rcases kinds finding hf with rfl | rfl | ⟨p, rfl⟩
    · rw [(missingIff.mp hf).2] at first
      exact first
    · exact (belowIff.mp hf).2.2.2 first
    · obtain ⟨-, m, -, licence, before⟩ := (earlyIff p).mp hf
      exact Nat.not_lt_zero p (before.trans_le (licence.2 first))

/-- The licence stands below two pragmas, the first of them indented; and a file without one, where the pragma is not
    looked at any more. -/
theorem header_exact_licence_below :
    let text := "\n\t pragma solidity ^0.8.20;\npragma solidity *;\n// SPDX-License-Identifier: MIT"
    let source : Source := ⟨"a.sol", text⟩
    let found := source.findingsOf .builtin {} .header
    let bare : Source := ⟨"b.sol", "pragma solidity ^0.8.20;"⟩
    let headed : Source := ⟨"c.sol", "// SPDX-License-Identifier: MIT\npragma solidity *;"⟩
    earlyPragma source.path {} 1 ∈ found ∧ licenceBelow source.path {} ∈ found ∧
    missingLicence bare.path {} ∈ bare.findingsOf .builtin {} .header ∧
    bare.findingsOf .builtin {} .header = [missingLicence bare.path {}] ∧
    0 ∈ licenceLines headed.text.toList ∧ headed.findingsOf .builtin {} .header = [] := by
  intro text source found bare headed
  have early : earlyPragma source.path {} 1 ∈ found := by decide +kernel
  have missing : missingLicence bare.path {} ∈ bare.findingsOf .builtin {} .header := by decide +kernel
  have first : 0 ∈ licenceLines headed.text.toList :=
    ⟨"// SPDX-License-Identifier: MIT".toList, by decide +kernel, "// ".toList, " MIT".toList, by decide⟩
  obtain ⟨-, -, -, -, -, -, below, -⟩ := header_exact source .builtin {}
  obtain ⟨-, -, -, -, -, alone, -, -⟩ := header_exact bare .builtin {}
  obtain ⟨-, -, -, -, -, -, -, nothing⟩ := header_exact headed .builtin {}
  exact ⟨early, below (by decide) (by decide) (by decide) 1 early, missing, alone missing, first, nothing first⟩

end SolidityLint

import SolidityLint.Proofs.Check.Independence
import SolidityLint.Proofs.Config.Settings
import SolidityLint.Proofs.Declaration.Imports
import SolidityLint.Proofs.Text.Occurrences

/-! Findings point into their file. Lines come from four sources: constants, the numbers of lines, the place of the
    first line of a kind, and the newlines in front of an occurrence. All of them give lines of the text. What is
    looked at for a rule is looked at from top to bottom, so the findings of a rule come in the order of their lines
    (`InPlace`). Across rules they need not: names are looked at kind by kind. -/

namespace SolidityLint

/-- What holds of violations of some rules that are found in a text of so many lines: they stand on its lines, and
    those of a single rule come in the order of their lines. -/
structure InPlace (count : Nat) (own : List Rule) (violations : List Violation) : Prop where
  rules : ∀ violation ∈ violations, violation.rule ∈ own
  bounds : ∀ violation ∈ violations, 1 ≤ violation.line ∧ violation.line ≤ count
  order : violations.Pairwise fun a b => a.rule = b.rule → a.line ≤ b.line

namespace InPlace

variable {count : Nat} {own other : List Rule} {one two : List Violation}

theorem nil : InPlace count own [] :=
  ⟨nofun, nofun, .nil⟩

theorem singleton {violation : Violation} (hr : violation.rule ∈ own) (h : 1 ≤ violation.line)
    (h' : violation.line ≤ count) : InPlace count own [violation] :=
  ⟨List.forall_mem_singleton.mpr hr, List.forall_mem_singleton.mpr ⟨h, h'⟩, List.pairwise_singleton _ _⟩

/-- Between violations of different rules lines need no order. -/
theorem append (h : InPlace count own one) (h' : InPlace count other two) (disjoint : ∀ rule ∈ own, rule ∉ other) :
    InPlace count (own ++ other) (one ++ two) where
  rules := List.forall_mem_append.mpr
    ⟨fun violation hv => List.mem_append_left _ (h.rules violation hv),
      fun violation hv => List.mem_append_right _ (h'.rules violation hv)⟩
  bounds := List.forall_mem_append.mpr ⟨h.bounds, h'.bounds⟩
  order := List.pairwise_append.mpr ⟨h.order, h'.order, fun a ha b hb same =>
    absurd (same ▸ h'.rules b hb) (disjoint a.rule (h.rules a ha))⟩

theorem ite {on : Bool} (h : InPlace count own one) : InPlace count own (if on then one else []) := by
  cases on with
  | false => exact nil
  | true => exact h

/-- Things that are looked at from top to bottom; what is wrong with a thing is found on its line. -/
theorem flatMap {α : Type} {items : List α} {place : α → Nat} {violations : α → List Violation}
    (rules : ∀ item, ∀ violation ∈ violations item, violation.rule ∈ own)
    (lines : ∀ item, ∀ violation ∈ violations item, violation.line = place item)
    (bounds : ∀ item ∈ items, 1 ≤ place item ∧ place item ≤ count)
    (sorted : items.Pairwise fun a b => place a ≤ place b) : InPlace count own (items.flatMap violations) where
  rules := by
    intro violation hv
    obtain ⟨item, -, hv⟩ := List.mem_flatMap.mp hv
    exact rules item violation hv
  bounds := by
    intro violation hv
    obtain ⟨item, hi, hv⟩ := List.mem_flatMap.mp hv
    rw [lines item violation hv]
    exact bounds item hi
  order := by
    refine List.pairwise_flatMap.mpr ⟨fun item _ => ?_, sorted.imp fun {a b} le x hx y hy _ => ?_⟩
    · refine List.pairwise_of_forall_mem_list fun x hx y hy _ => ?_
      exact Nat.le_of_eq ((lines item x hx).trans (lines item y hy).symm)
    · rw [lines a x hx, lines b y hy]
      exact le

/-- All that is found for some rules is of these rules, and none of it is of others. -/
theorem filter_eq_self (h : InPlace count own one) : one.filter (·.rule ∈ own) = one := by
  rw [List.filter_eq_self]
  intro violation hv
  simpa using h.rules violation hv

theorem filter_eq_nil (h : InPlace count own one) (disjoint : ∀ rule ∈ own, rule ∉ other) :
    one.filter (·.rule ∈ other) = [] := by
  rw [List.filter_eq_nil_iff]
  intro violation hv
  simpa using disjoint violation.rule (h.rules violation hv)

end InPlace

namespace Check

open Text Declaration

/-! ### Header -/

theorem licence_inPlace (rules : HeaderRules) (text : List Char) :
    InPlace (lineCount text) [.spdxLicense, .spdxAtTop] (licence rules text) := by
  have one : 1 ≤ lineCount text := Nat.le_add_left 1 _
  unfold licence
  split
  · exact .nil
  · split
    · exact .singleton (by simp) (Nat.le_refl 1) one
    · split
      · exact .singleton (by simp) (Nat.le_refl 1) one
      · exact .nil

theorem pragma_inPlace (rules : HeaderRules) (text : List Char) :
    InPlace (lineCount text) [.pragmaAfterLicense] (pragma rules text) := by
  unfold pragma
  split
  · exact .nil
  · split
    · rename_i place _ found _
      have inside : place < (lines text).length := (List.findIdx?_eq_some_iff_getElem.mp found).1
      rw [length_lines] at inside
      split
      · exact .singleton (by simp) (Nat.le_add_left 1 _) inside
      · exact .nil
    · exact .nil

theorem header_inPlace (rules : HeaderRules) (text : List Char) :
    InPlace (lineCount text) [.spdxLicense, .spdxAtTop, .pragmaAfterLicense] (header rules text) :=
  (licence_inPlace rules text).append (pragma_inPlace rules text) (by decide)

/-! ### Imports -/

theorem map_snd_withPrevious (statements : List ImportLine) : (withPrevious statements).map (·.2) = statements :=
  List.map_snd_zip (by simp)

theorem neighbours_line (rules : ImportRules) (pair : Option ImportLine × ImportLine) :
    ∀ violation ∈ neighbours rules pair, violation.line = pair.2.line := by
  intro violation hv
  unfold neighbours namedOnly alphabetical at hv
  grind

theorem imports_inPlace (rules : ImportRules) (text : List Char) :
    InPlace (lineCount text) [.namedOnly, .alphabetical] (imports rules text) := by
  have statements := map_snd_withPrevious (Declaration.imports (lines text))
  refine .flatMap (fun pair violation hv => ?_) (neighbours_line rules) (fun pair hp => ?_) ?_
  · simpa using rule_of_mem_neighbours pair violation hv
  · rw [← length_lines]
    exact line_bounds (statements ▸ List.mem_map_of_mem hp)
  · have sorted := pairwise_lt_line_imports (lines text)
    rw [← statements, List.pairwise_map] at sorted
    exact sorted.imp Nat.le_of_lt

/-! ### Layout -/

theorem line_line (rules : LayoutRules) (number : Nat) (cs : List Char) :
    ∀ violation ∈ line rules number cs, violation.line = number := by
  intro violation hv
  unfold line maxLineLength noTabs noTrailingWhitespace at hv
  grind

theorem layout_inPlace (rules : LayoutRules) (text : List Char) :
    InPlace (lineCount text) [.maxLineLength, .noTabs, .noTrailingWhitespace] (layout rules text) := by
  refine .flatMap (fun numbered violation hv => ?_) (fun numbered => line_line rules numbered.2 numbered.1)
    (fun numbered hn => ?_) ((pairwise_number (lines text)).imp Nat.le_of_lt)
  · simpa using rule_of_mem_line violation hv
  · rw [← length_lines]
    exact number_bounds hn

/-! ### Names -/

theorem contract_line (found : Nat × ContractSpan) : ∀ violation ∈ contract found, violation.line = found.1 := by
  intro violation hv
  unfold contract at hv
  grind

theorem function_line (rules : NamingRules) (found : Nat × FunctionSpan) :
    ∀ violation ∈ function rules found, violation.line = found.1 := by
  intro violation hv
  rcases List.mem_append.mp hv with hv | hv
  · unfold functionName at hv
    grind
  · unfold functionArguments at hv
    grind

theorem event_line (rules : NamingRules) (found : Nat × EventSpan) :
    ∀ violation ∈ event rules found, violation.line = found.1 := by
  intro violation hv
  unfold event at hv
  grind

theorem constant_line (found : Nat × ConstantSpan) : ∀ violation ∈ constant found, violation.line = found.1 := by
  intro violation hv
  unfold constant at hv
  grind

/-- Declarations of a kind, found from top to bottom. -/
theorem occurrences_inPlace {α : Type} {read : Bool → List Char → Option α} {width : α → Nat} {own : List Rule}
    {violations : Nat × α → List Violation}
    (rules : ∀ found, ∀ violation ∈ violations found, violation.rule ∈ own)
    (lines : ∀ found, ∀ violation ∈ violations found, violation.line = found.1) (text : List Char) :
    InPlace (lineCount text) own ((occurrences read width text).flatMap violations) :=
  .flatMap rules lines (fun _ hf => line_bounds_of_mem_occurrences hf) (pairwise_line_occurrences read width text)

theorem contracts_inPlace (text : List Char) :
    InPlace (lineCount text) [.contracts] ((contracts text).flatMap contract) :=
  occurrences_inPlace (fun found violation hv => by simp [rule_of_mem_contract found violation hv]) contract_line text

theorem functions_inPlace (rules : NamingRules) (text : List Char) :
    InPlace (lineCount text) [.functions, .privateInternalFunctions, .functionArguments]
      ((functions text).flatMap (function rules)) := by
  refine .flatMap (fun found violation hv => ?_) (function_line rules)
    (fun found hf => line_bounds_of_mem_occurrences (List.mem_filter.mp hf).1)
    ((pairwise_line_occurrences _ _ text).filter _)
  rcases List.mem_append.mp hv with hv | hv
  · rcases rule_of_mem_functionName found violation hv with h | h <;> simp [h]
  · simp [rule_of_mem_functionArguments found violation hv]

theorem events_inPlace (rules : NamingRules) (text : List Char) :
    InPlace (lineCount text) [.events, .eventsPastTense] ((events text).flatMap (event rules)) :=
  occurrences_inPlace (fun found violation hv => by simpa using rule_of_mem_event found violation hv)
    (event_line rules) text

theorem constants_inPlace (text : List Char) :
    InPlace (lineCount text) [.constants] ((constants text).flatMap constant) :=
  occurrences_inPlace (fun found violation hv => by simp [rule_of_mem_constant found violation hv]) constant_line text

theorem naming_inPlace (rules : NamingRules) (text : List Char) :
    InPlace (lineCount text) [.contracts, .functions, .privateInternalFunctions, .functionArguments, .events,
      .eventsPastTense, .constants] (naming rules text) :=
  (((contracts_inPlace text).ite.append (functions_inPlace rules text) (by decide)).append
    (events_inPlace rules text).ite (by decide)).append (constants_inPlace text).ite (by decide)

end Check

/-! ### Rules that are on -/

namespace Check

theorem setting_of_mem_header {rules : HeaderRules} {text : List Char} :
    ∀ violation ∈ header rules text, (rules.setting violation.rule).isOn = true := by
  intro violation hv
  unfold header licence pragma at hv
  grind [HeaderRules.setting, Setting.isOn_ofSwitch]

theorem setting_of_mem_imports {rules : ImportRules} {text : List Char} :
    ∀ violation ∈ imports rules text, (rules.setting violation.rule).isOn = true := by
  intro violation hv
  obtain ⟨pair, -, hv⟩ := List.mem_flatMap.mp hv
  unfold neighbours namedOnly alphabetical at hv
  grind [ImportRules.setting, Setting.isOn_ofSwitch]

theorem setting_of_mem_naming {rules : NamingRules} {text : List Char} :
    ∀ violation ∈ naming rules text, (rules.setting violation.rule).isOn = true := by
  intro violation hv
  simp only [naming, List.mem_append] at hv
  rcases hv with ((hv | hv) | hv) | hv
  · split at hv
    · rename_i on
      rw [flatMap_rule_eq rule_of_mem_contract _ violation hv]
      simp [NamingRules.setting, on]
    · cases hv
  · obtain ⟨found, -, hv⟩ := List.mem_flatMap.mp hv
    unfold function functionName functionArguments at hv
    grind [NamingRules.setting, Setting.isOn_ofSwitch]
  · split at hv
    · obtain ⟨found, -, hv⟩ := List.mem_flatMap.mp hv
      unfold event at hv
      grind [NamingRules.setting, Setting.isOn_ofSwitch]
    · cases hv
  · split at hv
    · rename_i on
      rw [flatMap_rule_eq rule_of_mem_constant _ violation hv]
      simp [NamingRules.setting, on]
    · cases hv

theorem setting_of_mem_layout {rules : LayoutRules} {text : List Char} :
    ∀ violation ∈ layout rules text, (rules.setting violation.rule).isOn = true := by
  intro violation hv
  obtain ⟨numbered, -, hv⟩ := List.mem_flatMap.mp hv
  unfold line maxLineLength noTabs noTrailingWhitespace at hv
  grind [LayoutRules.setting, Setting.isOn_ofSwitch, Setting.isOn_ofLimit]

end Check

/-! ### All categories -/

theorem Category.violations_inPlace (category : Category) (rules : RuleConfiguration) (text : List Char) :
    InPlace (Text.lineCount text) category.rules (category.violations rules text) :=
  violations_cases (motive := fun category => InPlace (Text.lineCount text) category.rules) rules text
    (fun _ => .nil) (fun settings _ => Check.header_inPlace settings text)
    (fun settings _ => Check.imports_inPlace settings text) (fun settings _ => Check.naming_inPlace settings text)
    (fun settings _ => Check.layout_inPlace settings text) category

theorem Category.setting_of_mem_violations (category : Category) (rules : RuleConfiguration) (text : List Char) :
    ∀ violation ∈ category.violations rules text,
      (rules.settings? category).any (fun setting => (setting violation.rule).isOn) = true := by
  refine violations_cases (motive := fun category violations => ∀ violation ∈ violations,
    (rules.settings? category).any (fun setting => (setting violation.rule).isOn) = true) rules text
    (fun _ => nofun) (fun settings h => ?_) (fun settings h => ?_) (fun settings h => ?_) (fun settings h => ?_)
    category
  · simpa [RuleConfiguration.settings?, h] using Check.setting_of_mem_header
  · simpa [RuleConfiguration.settings?, h] using Check.setting_of_mem_imports
  · simpa [RuleConfiguration.settings?, h] using Check.setting_of_mem_naming
  · simpa [RuleConfiguration.settings?, h] using Check.setting_of_mem_layout

/-- Violations are found of rules that are on. -/
theorem Category.enables_of_mem_violations (category : Category) (rules : RuleConfiguration) (text : List Char) :
    ∀ violation ∈ category.violations rules text, rules.enables violation.rule = true := by
  intro violation hv
  rw [RuleConfiguration.enables, category.category_of_mem_violations violation hv]
  exact category.setting_of_mem_violations rules text violation hv

theorem Source.violations_inPlace (source : Source) (rules : RuleConfiguration) :
    InPlace source.lines.length Rule.all (source.violations rules) := by
  have found (category : Category) := category.violations_inPlace rules source.text.toList
  have all := (((found .header).append (found .imports) (by decide)).append (found .naming) (by decide)).append
    (found .layout) (by decide)
  have rows : Rule.all = Category.header.rules ++ Category.imports.rules ++ Category.naming.rules ++
      Category.layout.rules := rfl
  rw [Source.lines, Text.length_lines, rows]
  simpa [Source.violations, Category.all] using all

/-! ### Findings -/

theorem checkSources_singleton (source : Source) (rules : RuleConfiguration) (severities : SeverityMap) :
    (checkSources [source] rules severities).findings =
      (source.violations rules).map (·.toFinding severities source.path) := by
  rw [findings_checkSources, List.flatMap_singleton, source.findings_eq_map]

/-- In the findings of a file, those of an identifier come in the order of their lines. -/
theorem pairwise_line_findings (source : Source) (rules : RuleConfiguration) (severities : SeverityMap) (id : String) :
    ((checkSources [source] rules severities).findings.filter (·.rule = id)).Pairwise (·.line ≤ ·.line) := by
  rw [checkSources_singleton, List.pairwise_filter, List.pairwise_map]
  refine (source.violations_inPlace rules).order.imp fun {a b} order ha hb => ?_
  have same : a.rule.id = b.rule.id := (of_decide_eq_true ha).trans (of_decide_eq_true hb).symm
  exact Int.ofNat_le.mpr (order (Rule.id_injective same))

/-- What is found in files is what is found in each of them; and every finding of a file has its path, a line of its
    text, and identifier and code of a rule that is on. The findings of a rule come in the order of their lines. -/
theorem findings_inPlace (rules : RuleConfiguration) (severities : SeverityMap) :
    (∀ sources : List Source, (checkSources sources rules severities).findings =
      sources.flatMap fun source => (checkSources [source] rules severities).findings) ∧
    ∀ source : Source,
      (∀ finding ∈ (checkSources [source] rules severities).findings,
        finding.path = source.path ∧ 1 ≤ finding.line ∧ finding.line ≤ source.lines.length ∧
          ∃ rule ∈ Rule.all, finding.rule = rule.id ∧ finding.code = rule.code ∧ rules.enables rule = true) ∧
      ∀ id : String,
        ((checkSources [source] rules severities).findings.filter (·.rule = id)).Pairwise (·.line ≤ ·.line) := by
  refine ⟨fun sources => ?_, fun source => ⟨fun finding hf => ?_, pairwise_line_findings source rules severities⟩⟩
  · rw [findings_checkSources]
    exact List.flatMap_congr fun source _ => by rw [checkSources_singleton, source.findings_eq_map]
  · rw [checkSources_singleton] at hf
    obtain ⟨violation, hv, rfl⟩ := List.mem_map.mp hf
    have inPlace := source.violations_inPlace rules
    obtain ⟨low, high⟩ := inPlace.bounds violation hv
    obtain ⟨category, -, own⟩ := List.mem_flatMap.mp hv
    exact ⟨rfl, Int.ofNat_le.mpr low, Int.ofNat_le.mpr high, violation.rule, inPlace.rules violation hv, rfl, rfl,
      category.enables_of_mem_violations rules _ violation own⟩

/-- The second of two badly named contracts, which stands on the third line of a file. -/
theorem findings_inPlace_contracts :
    let source : Source := ⟨"a.sol", "\n  contract a \x7b\x7d\ncontract b \x7b\x7d\n"⟩
    let finding : Finding := ⟨"a.sol", 3, "naming.contracts", "ContractNaming",
      "Contract name 'b' should use CapWords style", .error⟩
    finding ∈ (checkSources [source] .builtin {}).findings ∧ source.lines.length = 4 ∧
      finding.path = source.path ∧ 1 ≤ finding.line ∧ finding.line ≤ source.lines.length ∧
        ∃ rule ∈ Rule.all, finding.rule = rule.id ∧ finding.code = rule.code ∧
          RuleConfiguration.builtin.enables rule = true := by
  intro source finding
  have found : finding ∈ (checkSources [source] .builtin {}).findings := by decide +kernel
  exact ⟨found, by decide, ((findings_inPlace .builtin {}).2 source).1 finding found⟩

end SolidityLint

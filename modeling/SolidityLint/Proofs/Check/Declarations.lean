import SolidityLint.Proofs.Check.Places
import SolidityLint.Proofs.Declaration.Constants
import SolidityLint.Proofs.Declaration.Contracts
import SolidityLint.Proofs.Naming.Styles

/-! What is found about declarations. The findings of a rule are those of its category, and in it those of the kind of
    declaration that the rule is about; each of these is a declaration that a search through the text takes and whose
    name has not the style of its kind. -/

namespace SolidityLint

open Text Declaration

/-! ### The findings of some rules -/

section

variable (source : Source) (rules : RuleConfiguration) (severities : SeverityMap)

/-- The findings of rules of one category are found by that category. -/
theorem filter_findings_checkSources {own : List Rule} {category : Category}
    (h : ∀ rule ∈ own, rule.category = category) :
    (checkSources [source] rules severities).findings.filter (·.rule ∈ own.map Rule.id) =
      ((category.violations rules source.text.toList).filter (·.rule ∈ own)).map
        (·.toFinding severities source.path) := by
  have others {elsewhere : Category} (different : elsewhere ≠ category) :
      (elsewhere.violations rules source.text.toList).filter (·.rule ∈ own) = [] := by
    rw [List.filter_eq_nil_iff]
    intro violation hv
    have place := elsewhere.category_of_mem_violations violation hv
    simp only [decide_eq_true_eq]
    intro hm
    exact different (place.symm.trans (h _ hm))
  have here : (source.violations rules).filter (·.rule ∈ own) =
      (category.violations rules source.text.toList).filter (·.rule ∈ own) := by
    rw [Source.violations, List.filter_flatMap]
    cases category <;> simp [Category.all, others]
  have same (violation : Violation) :
      ((violation.toFinding severities source.path).rule ∈ own.map Rule.id) ↔ violation.rule ∈ own := by
    simp [Violation.toFinding]
  rw [findings_checkSources, List.flatMap_singleton, Source.findings_eq_map, List.filter_map, ← here]
  simp only [Function.comp_def, same]

/-- What a category finds more with a rule on than with it off are the findings of the rule. -/
theorem findings_of_rule {rule : Rule} (h : rule ≠ .privateInternalFunctions) {before own after : List Violation}
    (on : rule.category.violations rules source.text.toList =
      before ++ ((if rules.enables rule then own else []) ++ after))
    (off : rule.category.violations (rules.without rule) source.text.toList = before ++ after)
    (hr : ∀ violation ∈ own, violation.rule = rule) :
    (checkSources [source] rules severities).findings.filter (·.rule = rule.id) =
        (if rules.enables rule then own.map (·.toFinding severities source.path) else []) ∧
      source.findingsOf rules severities rule.category = before.map (·.toFinding severities source.path) ++
        ((if rules.enables rule then own.map (·.toFinding severities source.path) else []) ++
          after.map (·.toFinding severities source.path)) := by
  have nothing : (before ++ after).filter (·.rule ∈ [rule]) = [] := by
    rw [← off, Category.violations_without h, List.filter_filter, List.filter_eq_nil_iff]
    intro violation _
    by_cases same : violation.rule = rule <;> simp [Violation.survives, same]
  obtain ⟨front, behind⟩ := List.append_eq_nil_iff.mp ((List.filter_append ..).symm.trans nothing)
  have self : own.filter (·.rule ∈ [rule]) = own := by
    rw [List.filter_eq_self]
    intro violation hv
    simp [hr violation hv]
  have place : ∀ other ∈ [rule], other.category = rule.category := by simp
  have told := filter_findings_checkSources source rules severities place
  rw [on, List.filter_append, List.filter_append, front, behind] at told
  have every := source.findingsOf_eq rules severities rule.category
  rw [on, List.map_append, List.map_append] at every
  cases hon : rules.enables rule with
  | false => simpa [hon] using And.intro told every
  | true =>
    simp only [hon, if_true, self, List.nil_append, List.append_nil] at told every ⊢
    exact ⟨by simpa using told, every⟩

end

/-! ### Contracts and constants among the names -/

theorem naming_eq_contracts_append (rules : NamingRules) (text : List Char) :
    Check.naming rules text = (if rules.contracts then (contracts text).flatMap Check.contract else []) ++
      Check.naming (rules.without .contracts) text := by
  have off : rules.without .contracts = { rules with contracts := false } := by simp [NamingRules.without]
  rw [off, Check.naming, Check.naming, List.append_assoc, List.append_assoc]
  simp only [Bool.false_eq_true, if_false, List.nil_append, List.append_assoc]
  rfl

theorem naming_eq_append_constants (rules : NamingRules) (text : List Char) :
    Check.naming rules text = Check.naming (rules.without .constants) text ++
      if rules.constants then (constants text).flatMap Check.constant else [] := by
  have off : rules.without .constants = { rules with constants := false } := by simp [NamingRules.without]
  rw [off, Check.naming, Check.naming]
  simp only [Bool.false_eq_true, if_false, List.append_nil]
  rfl

section

variable (rules : RuleConfiguration) (text : List Char)

theorem enables_eq_any {rule : Rule} (h : rule.category = .naming) :
    rules.enables rule = rules.naming.any fun naming => (naming.setting rule).isOn := by
  rw [RuleConfiguration.enables, h, RuleConfiguration.settings?, Option.any_map]

/-- With names looked at, a rule on them is on where its setting is. -/
theorem enables_of_naming {naming : NamingRules} (h : rules.naming = some naming) {rule : Rule}
    (hr : rule.category = .naming) : rules.enables rule = (naming.setting rule).isOn := by
  rw [enables_eq_any rules hr, h, Option.any_some]

theorem enables_of_naming_eq_none (h : rules.naming = none) {rule : Rule} (hr : rule.category = .naming) :
    rules.enables rule = false := by
  rw [enables_eq_any rules hr, h, Option.any_none]

theorem violations_eq_contracts_append : Category.naming.violations rules text =
    (if rules.enables .contracts then (contracts text).flatMap Check.contract else []) ++
      Category.naming.violations (rules.without .contracts) text := by
  rw [enables_eq_any rules rfl, Category.violations, Category.violations, RuleConfiguration.without]
  cases rules.naming with
  | none => rfl
  | some naming => simpa [NamingRules.setting] using naming_eq_contracts_append naming text

theorem violations_eq_append_constants : Category.naming.violations rules text =
    Category.naming.violations (rules.without .constants) text ++
      if rules.enables .constants then (constants text).flatMap Check.constant else [] := by
  rw [enables_eq_any rules rfl, Category.violations, Category.violations, RuleConfiguration.without]
  cases rules.naming with
  | none => rfl
  | some naming => simpa [NamingRules.setting] using naming_eq_append_constants naming text

end

/-! ### Names without their style -/

theorem styleMessage_eq {kind style opening ending : String} (ho : kind ++ " '" = opening)
    (he : "' should use " ++ style ++ " style" = ending) (name : List Char) :
    Check.styleMessage kind name style = opening ++ String.ofList name ++ ending := by
  rw [Check.styleMessage, ho, ← he]
  simp only [String.append_assoc]

section

variable (source : Source) (rules : RuleConfiguration) (severities : SeverityMap)

/-- The finding about a name on a line, if the name is not in a style. -/
def misnamed (rule code : String) (style : NameStyle) (line : Nat) (name : List Char) (message : String) :
    List Finding :=
  if style.Fits name then []
  else [{ path := source.path, line, rule, code, message, severity := severities.resolve rule }]

/-- Declarations have identifiers for names, in which a style passes over no newline. -/
theorem map_toFinding_eq_misnamed (rule : Rule) (style : NameStyle) (line : Nat) {name : List Char}
    (h : '\n' ∉ name) (message : String) :
    (if style.admits name then [] else [(⟨line, rule, message⟩ : Violation)]).map (·.toFinding severities source.path) =
      misnamed source severities rule.id rule.code style line name message := by
  simp only [misnamed, NameStyle.admits_iff_of_notMem h]
  split <;> rfl

/-- What rules on names find is found among the names, if these are looked at. -/
theorem filter_findings_naming {own : List Rule} (h : ∀ rule ∈ own, rule.category = .naming) :
    (checkSources [source] rules severities).findings.filter (·.rule ∈ own.map Rule.id) =
      match rules.naming with
      | none => []
      | some naming =>
        ((Check.naming naming source.text.toList).filter (·.rule ∈ own)).map
          (·.toFinding severities source.path) := by
  rw [filter_findings_checkSources source rules severities h, Category.violations]
  cases rules.naming <;> rfl

/-- What is found for a rule that asks nothing of a declaration but the style of its name. -/
theorem findings_of_names {α : Type} (rule : Rule) (h : rule ≠ .privateInternalFunctions) (style : NameStyle)
    (message : List Char → String) {name : α → List Char} {found : List (Nat × α)}
    (named : ∀ declaration ∈ found, '\n' ∉ name declaration.2) {before after : List Violation}
    (on : rule.category.violations rules source.text.toList = before ++
      ((if rules.enables rule then
          found.flatMap fun declaration =>
            if style.admits (name declaration.2) then []
            else [⟨declaration.1, rule, message (name declaration.2)⟩]
        else []) ++ after))
    (off : rule.category.violations (rules.without rule) source.text.toList = before ++ after) :
    let about := if rules.enables rule then
        found.flatMap fun declaration =>
          misnamed source severities rule.id rule.code style declaration.1 (name declaration.2)
            (message (name declaration.2))
      else []
    (checkSources [source] rules severities).findings.filter (·.rule = rule.id) = about ∧
      source.findingsOf rules severities rule.category = before.map (·.toFinding severities source.path) ++
        (about ++ after.map (·.toFinding severities source.path)) := by
  have same : (found.flatMap fun declaration =>
        if style.admits (name declaration.2) then []
        else [(⟨declaration.1, rule, message (name declaration.2)⟩ : Violation)]).map
          (·.toFinding severities source.path) =
      found.flatMap fun declaration =>
        misnamed source severities rule.id rule.code style declaration.1 (name declaration.2)
          (message (name declaration.2)) := by
    rw [List.map_flatMap]
    exact List.flatMap_congr fun declaration hd =>
      map_toFinding_eq_misnamed source severities rule style _ (named _ hd) _
  have own := findings_of_rule source rules severities h on off <| flatMap_rule_eq (fun declaration violation hv => by
    split at hv
    · cases hv
    · rw [List.mem_singleton.mp hv]) _
  rw [same] at own
  exact own

end

/-! ### Contracts -/

/-- The contract declarations of a text are the one list of spans that a search from its front takes: white space from
    the start of a line on, the keyword, white space and a name. With the rule on, each of them whose name is not in
    capitalized words is a finding on the line where it begins, and nothing else is found for the rule. That line is the
    top of the lines of white space above the keyword. -/
theorem contracts_exact (source : Source) (rules : RuleConfiguration) (severities : SeverityMap) :
    let cs := source.text.toList
    ∃ spans, Leftmost (ContractSpan.SitsAt cs) ContractSpan.width 0 spans ∧
      (∀ others, Leftmost (ContractSpan.SitsAt cs) ContractSpan.width 0 others → others = spans) ∧
      contracts cs = spans.map (fun span => (lineCount (cs.take span.1), span.2)) ∧
      (let found :=
        if rules.enables .contracts then
          spans.flatMap fun span =>
            misnamed source severities "naming.contracts" "ContractNaming" .capWords (lineCount (cs.take span.1))
              span.2.name ("Contract name '" ++ String.ofList span.2.name ++ "' should use CapWords style")
        else []
       (checkSources [source] rules severities).findings.filter (·.rule = "naming.contracts") = found ∧
        source.findingsOf rules severities .naming =
          found ++ source.findingsOf (rules.without .contracts) severities .naming) ∧
      ∀ span ∈ spans, ContractSpan.AtTop cs (span.1 + span.2.indent.length) (lineCount (cs.take span.1))
        (lineCount (cs.take (span.1 + span.2.indent.length))) := by
  intro cs
  obtain ⟨spans, leftmost, unique, found⟩ := leftmost_contracts cs
  have named : ∀ declaration ∈ contracts cs, '\n' ∉ declaration.2.name := by
    rw [found]
    exact List.forall_mem_map.mpr fun span hs => (leftmost.sits span hs).2.1.name.newline_notMem
  have on := (violations_eq_contracts_append rules cs).trans (List.nil_append _).symm
  have exact := findings_of_names source rules severities .contracts (by decide) .capWords
    (fun name => Check.styleMessage "Contract name" name NameStyle.capWords.name) named on (List.nil_append _).symm
  have message (name : List Char) : Check.styleMessage "Contract name" name NameStyle.capWords.name =
      "Contract name '" ++ String.ofList name ++ "' should use CapWords style" :=
    styleMessage_eq rfl rfl name
  simp only [message, found, List.flatMap_map] at exact
  refine ⟨spans, leftmost, unique, found, ?_, fun span hs => ContractSpan.atTop_of_mem leftmost hs⟩
  rw [source.findingsOf_eq (rules.without .contracts)]
  exact ⟨exact.1, exact.2⟩

/-- The first declaration takes in the lines of white space above it, and the last line is no declaration, since the one
    above it has taken its keyword for a name. -/
theorem contracts_exact_blank_lines :
    let source : Source := ⟨"a.sol", "\n \n  contract a \x7b\x7d\ncontract\ncontract B \x7b\x7d"⟩
    let cs := source.text.toList
    ∃ spans, Leftmost (ContractSpan.SitsAt cs) ContractSpan.width 0 spans ∧
      spans.map (fun span => span.2.name) = ["a".toList, "contract".toList] ∧
      ((checkSources [source] .builtin {}).findings.filter (·.rule = "naming.contracts")).map (·.line) = [1, 4] ∧
      ∀ span ∈ spans, ContractSpan.AtTop cs (span.1 + span.2.indent.length) (lineCount (cs.take span.1))
        (lineCount (cs.take (span.1 + span.2.indent.length))) := by
  intro source cs
  obtain ⟨spans, leftmost, -, found, -, top⟩ := contracts_exact source .builtin {}
  have names : (contracts cs).map (fun found => found.2.name) = ["a".toList, "contract".toList] := by decide +kernel
  rw [found, List.map_map] at names
  exact ⟨spans, leftmost, names, by decide +kernel, top⟩

/-! ### Constants -/

/-- The constant declarations of a text are the one list of spans that a search from its front takes: a name, at least
    two characters of white space or a visibility in white space, and the keyword. With the rule on, each of them whose
    name is not in upper case is a finding on the line where it begins, and nothing else is found for the rule. Where
    one character of white space is all between a name and the keyword, no declaration begins in the name. -/
theorem constants_exact (source : Source) (rules : RuleConfiguration) (severities : SeverityMap) :
    let cs := source.text.toList
    ∃ spans, Leftmost (ConstantSpan.SitsAt cs) ConstantSpan.width 0 spans ∧
      (∀ others, Leftmost (ConstantSpan.SitsAt cs) ConstantSpan.width 0 others → others = spans) ∧
      constants cs = spans.map (fun span => (lineCount (cs.take span.1), span.2)) ∧
      (let found :=
        if rules.enables .constants then
          spans.flatMap fun span =>
            misnamed source severities "naming.constants" "ConstantNaming" .upperCase (lineCount (cs.take span.1))
              span.2.name
              ("Constant '" ++ String.ofList span.2.name ++ "' should use UPPER_CASE_WITH_UNDERSCORES style")
        else []
       (checkSources [source] rules severities).findings.filter (·.rule = "naming.constants") = found ∧
        source.findingsOf rules severities .naming =
          source.findingsOf (rules.without .constants) severities .naming ++ found) ∧
      ∀ p name c rest, IsIdentifier name → isBlank c = true → cs.drop p = name ++ c :: ("constant".toList ++ rest) →
        ∀ span ∈ spans, ¬(p ≤ span.1 ∧ span.1 < p + name.length) := by
  intro cs
  obtain ⟨spans, leftmost, unique, found⟩ := leftmost_constants cs
  have named : ∀ declaration ∈ constants cs, '\n' ∉ declaration.2.name := by
    rw [found]
    exact List.forall_mem_map.mpr fun span hs => (leftmost.sits span hs).1.name.newline_notMem
  have on := violations_eq_append_constants rules cs
  rw [← List.append_nil (ite ..)] at on
  have exact := findings_of_names source rules severities .constants (by decide) .upperCase
    (fun name => Check.styleMessage "Constant" name (NameStyle.upperCase.name ++ "_WITH_UNDERSCORES")) named on
    (List.append_nil _).symm
  have message (name : List Char) :
      Check.styleMessage "Constant" name (NameStyle.upperCase.name ++ "_WITH_UNDERSCORES") =
        "Constant '" ++ String.ofList name ++ "' should use UPPER_CASE_WITH_UNDERSCORES style" :=
    styleMessage_eq rfl rfl name
  simp only [message, found, List.flatMap_map, List.map_nil, List.append_nil] at exact
  refine ⟨spans, leftmost, unique, found, ?_, ?_⟩
  · rw [source.findingsOf_eq (rules.without .constants)]
    exact ⟨exact.1, exact.2⟩
  · intro p name c rest named blank text span hs inside
    exact ConstantSpan.not_sitsAt_of_single_blank named blank text inside.1 inside.2 span.2 (leftmost.sits span hs)

/-- A type takes the place of a name in front of a visibility, and one blank in front of the keyword is too few. -/
theorem constants_exact_one_blank :
    let source : Source := ⟨"a.sol", "uint public constant MAX = 1;\nuint x\n constant = 2;\nuint y constant = 3;"⟩
    let cs := source.text.toList
    cs.drop 57 = "y".toList ++ ' ' :: ("constant".toList ++ " = 3;".toList) ∧
    ∃ spans, Leftmost (ConstantSpan.SitsAt cs) ConstantSpan.width 0 spans ∧
      spans.map (fun span => span.2.name) = ["uint".toList, "x".toList] ∧
      ((checkSources [source] .builtin {}).findings.filter (·.rule = "naming.constants")).map (·.line) = [1, 2] ∧
      ∀ span ∈ spans, ¬(57 ≤ span.1 ∧ span.1 < 57 + "y".toList.length) := by
  intro source cs
  obtain ⟨spans, leftmost, -, found, -, single⟩ := constants_exact source .builtin {}
  have names : (constants cs).map (fun found => found.2.name) = ["uint".toList, "x".toList] := by decide +kernel
  rw [found, List.map_map] at names
  have text : cs.drop 57 = "y".toList ++ ' ' :: ("constant".toList ++ " = 3;".toList) := by decide +kernel
  have named : IsIdentifier "y".toList := ⟨'y', [], rfl, by decide, by simp⟩
  exact ⟨text, spans, leftmost, names, by decide +kernel,
    single 57 "y".toList ' ' " = 3;".toList named (by decide) text⟩

end SolidityLint

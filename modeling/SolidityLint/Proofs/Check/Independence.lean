import Mathlib.Data.List.Basic
import Mathlib.Data.List.Flatten
import SolidityLint.Proofs.Check.Accumulation
import SolidityLint.Proofs.Identifiers

/-! Rules are independent of each other, with three exceptions. Switching a category or a rule off takes away its own
    findings and leaves all others as they are and where they are. Two rules are looked at only where another one is
    on, and disappear with it (`Rule.needs?`). The style of inner functions is the third: without it, inner functions
    have to have the style of all other functions, so findings of that rule may come in (`Loosened`). -/

namespace SolidityLint

/-! ### Switching off -/

/-- The configuration with a category off. -/
def RuleConfiguration.withoutCategory (rules : RuleConfiguration) (category : Category) : RuleConfiguration where
  header := if category = .header then none else rules.header
  imports := if category = .imports then none else rules.imports
  naming := if category = .naming then none else rules.naming
  layout := if category = .layout then none else rules.layout

/-- The rules on licence line and pragma with a rule off. -/
def HeaderRules.without (rules : HeaderRules) (rule : Rule) : HeaderRules where
  spdxLicense := rules.spdxLicense && rule ≠ .spdxLicense
  spdxAtTop := rules.spdxAtTop && rule ≠ .spdxAtTop
  pragmaAfterLicense := rules.pragmaAfterLicense && rule ≠ .pragmaAfterLicense

/-- The rules on import statements with a rule off. -/
def ImportRules.without (rules : ImportRules) (rule : Rule) : ImportRules where
  namedOnly := rules.namedOnly && rule ≠ .namedOnly
  alphabetical := rules.alphabetical && rule ≠ .alphabetical

/-- The rules on names with a rule off. -/
def NamingRules.without (rules : NamingRules) (rule : Rule) : NamingRules where
  contracts := rules.contracts && rule ≠ .contracts
  functions := rules.functions && rule ≠ .functions
  privateInternalFunctions := rules.privateInternalFunctions && rule ≠ .privateInternalFunctions
  functionArguments := rules.functionArguments && rule ≠ .functionArguments
  events := rules.events && rule ≠ .events
  eventsPastTense := rules.eventsPastTense && rule ≠ .eventsPastTense
  constants := rules.constants && rule ≠ .constants

/-- The rules on single lines with a rule off. -/
def LayoutRules.without (rules : LayoutRules) (rule : Rule) : LayoutRules where
  maxLineLength := if rule = .maxLineLength then none else rules.maxLineLength
  noTabs := rules.noTabs && rule ≠ .noTabs
  noTrailingWhitespace := rules.noTrailingWhitespace && rule ≠ .noTrailingWhitespace

/-- The configuration with a rule off. -/
def RuleConfiguration.without (rules : RuleConfiguration) (rule : Rule) : RuleConfiguration where
  header := rules.header.map (·.without rule)
  imports := rules.imports.map (·.without rule)
  naming := rules.naming.map (·.without rule)
  layout := rules.layout.map (·.without rule)

/-- The rule that has to be on for a rule to be looked at. -/
def Rule.needs? : Rule → Option Rule
  | .spdxAtTop => some .spdxLicense
  | .eventsPastTense => some .events
  | _ => none

/-- Whether a violation is still found with a rule off: it is of another rule, and of one that does not need it. -/
def Violation.survives (rule : Rule) (violation : Violation) : Bool :=
  rule ≠ violation.rule ∧ violation.rule.needs? ≠ some rule

/-! ### Violations of a single rule -/

theorem filter_survives_eq_ite {rule own : Rule} {violations : List Violation}
    (h : ∀ violation ∈ violations, violation.rule = own) (hn : own.needs? = none) :
    violations.filter (·.survives rule) = if rule ≠ own then violations else [] := by
  by_cases hr : rule = own
  · rw [if_neg (by simp [hr]), List.filter_eq_nil_iff]
    intro violation hv
    simp [Violation.survives, h violation hv, hr]
  · rw [if_pos hr, List.filter_eq_self]
    intro violation hv
    simp [Violation.survives, h violation hv, hr, hn]

theorem flatMap_rule_eq {α : Type} {own : Rule} {violations : α → List Violation}
    (h : ∀ a, ∀ violation ∈ violations a, violation.rule = own) (items : List α) :
    ∀ violation ∈ items.flatMap violations, violation.rule = own := by
  intro violation hv
  obtain ⟨a, -, hv⟩ := List.mem_flatMap.mp hv
  exact h a violation hv

/-- Items that are looked at for a single rule, if it is on. -/
theorem ite_without_eq_filter {α : Type} {rule own : Rule} {violations : α → List Violation}
    (h : ∀ a, ∀ violation ∈ violations a, violation.rule = own) (hn : own.needs? = none) (on : Bool)
    (items : List α) :
    (if on && rule ≠ own then items.flatMap violations else []) =
      (if on then items.flatMap violations else []).filter (·.survives rule) := by
  cases on with
  | false => rfl
  | true => simpa using (filter_survives_eq_ite (flatMap_rule_eq h items) hn).symm

namespace Check

/-! ### Header -/

/-- The two rules on the licence. With the first off, the second is not looked at. -/
theorem licence_without (rule : Rule) (rules : HeaderRules) (text : List Char) :
    licence (rules.without rule) text = (licence rules text).filter (·.survives rule) := by
  unfold licence HeaderRules.without
  split
  · -- The licence is not looked at any more, or was not before.
    grind [Violation.survives, Rule.needs?]
  · grind [Violation.survives, Rule.needs?]

theorem rule_of_mem_pragma {rules : HeaderRules} {text : List Char} :
    ∀ violation ∈ pragma rules text, violation.rule = .pragmaAfterLicense := by
  intro violation hv
  unfold pragma at hv
  grind

theorem pragma_without (rule : Rule) (rules : HeaderRules) (text : List Char) :
    pragma (rules.without rule) text = (pragma rules text).filter (·.survives rule) := by
  rw [filter_survives_eq_ite rule_of_mem_pragma rfl]
  unfold pragma HeaderRules.without
  by_cases h : rule = .pragmaAfterLicense <;> simp [h]

theorem rule_of_mem_licence {rules : HeaderRules} {text : List Char} :
    ∀ violation ∈ licence rules text, violation.rule = .spdxLicense ∨ violation.rule = .spdxAtTop := by
  intro violation hv
  unfold licence at hv
  grind

theorem header_without (rule : Rule) (rules : HeaderRules) (text : List Char) :
    header (rules.without rule) text = (header rules text).filter (·.survives rule) := by
  rw [header, header, List.filter_append, licence_without, pragma_without]

/-! ### Imports -/

theorem neighbours_without (rule : Rule) (rules : ImportRules)
    (pair : Option Declaration.ImportLine × Declaration.ImportLine) :
    neighbours (rules.without rule) pair = (neighbours rules pair).filter (·.survives rule) := by
  have named : namedOnly (rules.without rule) pair.2 = (namedOnly rules pair.2).filter (·.survives rule) := by
    unfold namedOnly ImportRules.without
    grind [Violation.survives, Rule.needs?]
  have ordered : alphabetical (rules.without rule) pair.1 pair.2 =
      (alphabetical rules pair.1 pair.2).filter (·.survives rule) := by
    unfold alphabetical ImportRules.without
    grind [Violation.survives, Rule.needs?]
  rw [neighbours, neighbours, List.filter_append, named, ordered]

theorem rule_of_mem_neighbours {rules : ImportRules}
    (pair : Option Declaration.ImportLine × Declaration.ImportLine) :
    ∀ violation ∈ neighbours rules pair, violation.rule = .namedOnly ∨ violation.rule = .alphabetical := by
  intro violation hv
  unfold neighbours namedOnly alphabetical at hv
  grind

theorem imports_without (rule : Rule) (rules : ImportRules) (text : List Char) :
    imports (rules.without rule) text = (imports rules text).filter (·.survives rule) := by
  rw [imports, imports, importList, importList, List.filter_flatMap]
  exact List.flatMap_congr fun pair _ => neighbours_without rule rules pair

/-! ### Layout -/

theorem line_without (rule : Rule) (rules : LayoutRules) (number : Nat) (cs : List Char) :
    line (rules.without rule) number cs = (line rules number cs).filter (·.survives rule) := by
  have length : maxLineLength (rules.without rule) number cs =
      (maxLineLength rules number cs).filter (·.survives rule) := by
    unfold maxLineLength LayoutRules.without
    grind [Violation.survives, Rule.needs?]
  have tabs : noTabs (rules.without rule) number cs = (noTabs rules number cs).filter (·.survives rule) := by
    unfold noTabs LayoutRules.without
    grind [Violation.survives, Rule.needs?]
  have trailing : noTrailingWhitespace (rules.without rule) number cs =
      (noTrailingWhitespace rules number cs).filter (·.survives rule) := by
    unfold noTrailingWhitespace LayoutRules.without
    grind [Violation.survives, Rule.needs?]
  rw [line, line, List.filter_append, List.filter_append, length, tabs, trailing]

theorem rule_of_mem_line {rules : LayoutRules} {number : Nat} {cs : List Char} :
    ∀ violation ∈ line rules number cs, violation.rule = .maxLineLength ∨ violation.rule = .noTabs ∨
      violation.rule = .noTrailingWhitespace := by
  intro violation hv
  unfold line maxLineLength noTabs noTrailingWhitespace at hv
  grind

theorem layout_without (rule : Rule) (rules : LayoutRules) (text : List Char) :
    layout (rules.without rule) text = (layout rules text).filter (·.survives rule) := by
  rw [layout, layout, List.filter_flatMap]
  exact List.flatMap_congr fun numbered _ => line_without rule rules numbered.2 numbered.1

/-! ### Names -/

theorem rule_of_mem_contract (found : Nat × Declaration.ContractSpan) :
    ∀ violation ∈ contract found, violation.rule = .contracts := by
  intro violation hv
  unfold contract at hv
  grind

theorem rule_of_mem_constant (found : Nat × Declaration.ConstantSpan) :
    ∀ violation ∈ constant found, violation.rule = .constants := by
  intro violation hv
  unfold constant at hv
  grind

theorem rule_of_mem_functionArguments {rules : NamingRules} (found : Nat × Declaration.FunctionSpan) :
    ∀ violation ∈ functionArguments rules found, violation.rule = .functionArguments := by
  intro violation hv
  unfold functionArguments at hv
  split at hv
  · obtain ⟨name, -, rfl⟩ := List.mem_map.mp hv
    rfl
  · cases hv

theorem functionArguments_without (rule : Rule) (rules : NamingRules) (found : Nat × Declaration.FunctionSpan) :
    functionArguments (rules.without rule) found = (functionArguments rules found).filter (·.survives rule) := by
  rw [filter_survives_eq_ite (rule_of_mem_functionArguments found) rfl]
  unfold functionArguments NamingRules.without
  by_cases h : rule = .functionArguments <;> simp [h]

theorem rule_of_mem_functionName {rules : NamingRules} (found : Nat × Declaration.FunctionSpan) :
    ∀ violation ∈ functionName rules found,
      violation.rule = .privateInternalFunctions ∨ violation.rule = .functions := by
  intro violation hv
  unfold functionName at hv
  grind

/-- As long as the style of inner functions stays as it is, the same functions are looked at by the same rule. -/
theorem functionName_without {rule : Rule} (h : rule ≠ .privateInternalFunctions) (rules : NamingRules)
    (found : Nat × Declaration.FunctionSpan) :
    functionName (rules.without rule) found = (functionName rules found).filter (·.survives rule) := by
  unfold functionName NamingRules.without
  grind [Violation.survives, Rule.needs?]

theorem function_without {rule : Rule} (h : rule ≠ .privateInternalFunctions) (rules : NamingRules)
    (found : Nat × Declaration.FunctionSpan) :
    function (rules.without rule) found = (function rules found).filter (·.survives rule) := by
  rw [function, function, List.filter_append, functionName_without h, functionArguments_without]

/-- The two rules on an event, which is looked at only if the first is on. -/
theorem event_without {rule : Rule} (h : rule ≠ .events) (rules : NamingRules) (found : Nat × Declaration.EventSpan) :
    event (rules.without rule) found = (event rules found).filter (·.survives rule) := by
  unfold event NamingRules.without
  grind [Violation.survives, Rule.needs?]

theorem rule_of_mem_event {rules : NamingRules} (found : Nat × Declaration.EventSpan) :
    ∀ violation ∈ event rules found, violation.rule = .events ∨ violation.rule = .eventsPastTense := by
  intro violation hv
  unfold event at hv
  grind

theorem events_without (rule : Rule) (rules : NamingRules) (found : List (Nat × Declaration.EventSpan)) :
    (if (rules.without rule).events then found.flatMap (event (rules.without rule)) else []) =
      (if rules.events then found.flatMap (event rules) else []).filter (·.survives rule) := by
  by_cases h : rule = .events
  · -- Events are not looked at any more, and all that was found about them disappears.
    subst h
    have gone : (found.flatMap (event rules)).filter (·.survives .events) = [] := by
      rw [List.filter_eq_nil_iff]
      intro violation hv
      obtain ⟨span, -, hv⟩ := List.mem_flatMap.mp hv
      rcases rule_of_mem_event span violation hv with hr | hr <;> simp [Violation.survives, Rule.needs?, hr]
    cases rules.events <;> simp [NamingRules.without, gone]
  · have on : (rules.without rule).events = rules.events := by simp [NamingRules.without, h]
    rw [on]
    cases rules.events with
    | false => rfl
    | true =>
      simp only [if_true, List.filter_flatMap]
      exact List.flatMap_congr fun span _ => event_without h rules span

theorem naming_without {rule : Rule} (h : rule ≠ .privateInternalFunctions) (rules : NamingRules) (text : List Char) :
    naming (rules.without rule) text = (naming rules text).filter (·.survives rule) := by
  rw [naming, naming, List.filter_append, List.filter_append, List.filter_append, events_without,
    List.filter_flatMap, ← ite_without_eq_filter rule_of_mem_contract rfl,
    ← ite_without_eq_filter rule_of_mem_constant rfl]
  congr 3
  exact List.flatMap_congr fun found _ => function_without h rules found

end Check

/-- With a rule off that is not the style of inner functions, its violations disappear and those of the rule that
    needs it, and no others. -/
theorem Category.violations_without {rule : Rule} (h : rule ≠ .privateInternalFunctions) (category : Category)
    (rules : RuleConfiguration) (text : List Char) :
    category.violations (rules.without rule) text = (category.violations rules text).filter (·.survives rule) := by
  unfold Category.violations RuleConfiguration.without
  cases category with
  | header => cases rules.header with
    | none => rfl
    | some rules => exact Check.header_without rule rules text
  | imports => cases rules.imports with
    | none => rfl
    | some rules => exact Check.imports_without rule rules text
  | naming => cases rules.naming with
    | none => rfl
    | some rules => exact Check.naming_without h rules text
  | layout => cases rules.layout with
    | none => rfl
    | some rules => exact Check.layout_without rule rules text

/-! ### Categories -/

theorem Check.category_of_mem_naming {rules : NamingRules} {text : List Char} :
    ∀ violation ∈ naming rules text, violation.rule.category = .naming := by
  intro violation hv
  simp only [naming, List.mem_append] at hv
  rcases hv with ((hv | hv) | hv) | hv
  · split at hv
    · rw [flatMap_rule_eq rule_of_mem_contract _ violation hv]
      rfl
    · cases hv
  · obtain ⟨found, -, hv⟩ := List.mem_flatMap.mp hv
    rcases List.mem_append.mp hv with hv | hv
    · rcases rule_of_mem_functionName found violation hv with hr | hr <;> rw [hr] <;> rfl
    · rw [rule_of_mem_functionArguments found violation hv]
      rfl
  · split at hv
    · obtain ⟨found, -, hv⟩ := List.mem_flatMap.mp hv
      rcases rule_of_mem_event found violation hv with hr | hr <;> rw [hr] <;> rfl
    · cases hv
  · split at hv
    · rw [flatMap_rule_eq rule_of_mem_constant _ violation hv]
      rfl
    · cases hv

/-- A category finds violations of its own rules only. -/
theorem Category.category_of_mem_violations (category : Category) {rules : RuleConfiguration} {text : List Char} :
    ∀ violation ∈ category.violations rules text, violation.rule.category = category := by
  refine violations_cases (motive := fun category violations =>
    ∀ violation ∈ violations, violation.rule.category = category) rules text (fun _ => nofun) ?header ?imports
    (fun _ _ => Check.category_of_mem_naming) ?layout category
  case header =>
    intro settings _ violation hv
    rcases List.mem_append.mp hv with hv | hv
    · rcases Check.rule_of_mem_licence violation hv with hr | hr <;> rw [hr] <;> rfl
    · rw [Check.rule_of_mem_pragma violation hv]
      rfl
  case imports =>
    intro settings _ violation hv
    obtain ⟨pair, -, hv⟩ := List.mem_flatMap.mp hv
    rcases Check.rule_of_mem_neighbours pair violation hv with hr | hr <;> rw [hr] <;> rfl
  case layout =>
    intro settings _ violation hv
    obtain ⟨numbered, -, hv⟩ := List.mem_flatMap.mp hv
    rcases Check.rule_of_mem_line violation hv with hr | hr | hr <;> rw [hr] <;> rfl

theorem Category.violations_withoutCategory (category off : Category) (rules : RuleConfiguration) (text : List Char) :
    category.violations (rules.withoutCategory off) text =
      (category.violations rules text).filter (·.rule.category ≠ off) := by
  by_cases h : category = off
  · have nothing : category.violations (rules.withoutCategory off) text = [] := by
      subst h
      cases category <;> rfl
    rw [nothing, eq_comm, List.filter_eq_nil_iff]
    intro violation hv
    simp [category.category_of_mem_violations violation hv, h]
  · have same : category.violations (rules.withoutCategory off) text = category.violations rules text := by
      cases category <;> cases off <;> first | rfl | exact absurd rfl h
    rw [same, eq_comm, List.filter_eq_self]
    intro violation hv
    simp [category.category_of_mem_violations violation hv, h]

/-! ### The style of inner functions -/

/-- What a list of violations becomes with the style of inner functions off: all violations of that rule are gone,
    those of functions in general may come in, and everything else stays as it is and where it is. -/
structure Loosened (before after : List Violation) : Prop where
  gone : ∀ violation ∈ after, violation.rule ≠ .privateInternalFunctions
  kept : after.filter (·.rule ≠ .functions) =
    before.filter fun violation => violation.rule ≠ .functions ∧ violation.rule ≠ .privateInternalFunctions
  added : (before.filter (·.rule ≠ .privateInternalFunctions)).Sublist after

namespace Loosened

variable {before after before' after' : List Violation}

theorem append (h : Loosened before after) (h' : Loosened before' after') :
    Loosened (before ++ before') (after ++ after') where
  gone := fun violation hv => (List.mem_append.mp hv).elim (h.gone violation) (h'.gone violation)
  kept := by rw [List.filter_append, List.filter_append, h.kept, h'.kept]
  added := by
    rw [List.filter_append]
    exact h.added.append h'.added

theorem nil : Loosened [] [] :=
  ⟨fun _ hv => (List.not_mem_nil hv).elim, rfl, .slnil⟩

theorem flatMap {α : Type} {before after : α → List Violation} (h : ∀ a, Loosened (before a) (after a))
    (items : List α) : Loosened (items.flatMap before) (items.flatMap after) := by
  induction items with
  | nil => exact nil
  | cons item rest ih => exact (h item).append ih

/-- Violations of other rules stay. -/
theorem refl (h : ∀ violation ∈ before, violation.rule ≠ .privateInternalFunctions) : Loosened before before where
  gone := h
  kept := List.filter_congr fun violation hv => by simp [h violation hv]
  added := List.filter_sublist

theorem refl_ite {on : Bool} (h : ∀ violation ∈ before, violation.rule ≠ .privateInternalFunctions) :
    Loosened (if on then before else []) (if on then before else []) := by
  cases on with
  | false => exact nil
  | true => exact refl h

/-- Violations of that rule give way to violations of the rule for functions in general. -/
theorem exchange (h : ∀ violation ∈ before, violation.rule = .privateInternalFunctions)
    (h' : ∀ violation ∈ after, violation.rule = .functions) : Loosened before after where
  gone := fun violation hv => by simp [h' violation hv]
  kept := by
    rw [List.filter_eq_nil_iff.mpr fun violation hv => by simp [h' violation hv],
      List.filter_eq_nil_iff.mpr fun violation hv => by simp [h violation hv]]
  added := by
    rw [List.filter_eq_nil_iff.mpr fun violation hv => by simp [h violation hv]]
    exact List.nil_sublist _

end Loosened

namespace Check

theorem functionName_loosened (rules : NamingRules) (found : Nat × Declaration.FunctionSpan) :
    Loosened (functionName rules found) (functionName (rules.without .privateInternalFunctions) found) := by
  cases inner : isInner (Declaration.visibility found.2.tail) && rules.privateInternalFunctions with
  | true =>
    apply Loosened.exchange
    · intro violation hv
      unfold functionName at hv
      grind
    · intro violation hv
      unfold functionName NamingRules.without at hv
      grind
  | false =>
    have same : functionName (rules.without .privateInternalFunctions) found = functionName rules found := by
      unfold functionName NamingRules.without
      simp [inner]
    rw [same]
    refine Loosened.refl fun violation hv => ?_
    unfold functionName at hv
    grind

theorem function_loosened (rules : NamingRules) (found : Nat × Declaration.FunctionSpan) :
    Loosened (function rules found) (function (rules.without .privateInternalFunctions) found) := by
  refine (functionName_loosened rules found).append ?_
  have same : functionArguments (rules.without .privateInternalFunctions) found = functionArguments rules found := by
    simp [functionArguments, NamingRules.without]
  rw [same]
  exact Loosened.refl fun violation hv => by simp [rule_of_mem_functionArguments found violation hv]

theorem naming_loosened (rules : NamingRules) (text : List Char) :
    Loosened (naming rules text) (naming (rules.without .privateInternalFunctions) text) := by
  have events : event (rules.without .privateInternalFunctions) = event rules := by
    funext found
    simp [event, NamingRules.without]
  have others : (rules.without .privateInternalFunctions).contracts = rules.contracts ∧
      (rules.without .privateInternalFunctions).events = rules.events ∧
      (rules.without .privateInternalFunctions).constants = rules.constants := by
    simp [NamingRules.without]
  rw [naming, naming, events, others.1, others.2.1, others.2.2]
  refine (((Loosened.refl_ite fun violation hv => ?_).append ?_).append
    (Loosened.refl_ite fun violation hv => ?_)).append (Loosened.refl_ite fun violation hv => ?_)
  · simp [flatMap_rule_eq rule_of_mem_contract _ violation hv]
  · exact Loosened.flatMap (function_loosened rules) (Declaration.functions text)
  · obtain ⟨found, -, hv⟩ := List.mem_flatMap.mp hv
    rcases rule_of_mem_event found violation hv with hr | hr <;> simp [hr]
  · simp [flatMap_rule_eq rule_of_mem_constant _ violation hv]

end Check

theorem Category.violations_loosened (rules : RuleConfiguration) (text : List Char) (category : Category) :
    Loosened (category.violations rules text)
      (category.violations (rules.without .privateInternalFunctions) text) := by
  by_cases h : category = .naming
  · subst h
    unfold Category.violations RuleConfiguration.without
    cases rules.naming with
    | none => exact Loosened.nil
    | some rules => exact Check.naming_loosened rules text
  · -- No other category has a rule on functions.
    have own : ∀ violation ∈ category.violations rules text,
        violation.rule ≠ .privateInternalFunctions := fun violation hv hr => by
      have := category.category_of_mem_violations violation hv
      rw [hr] at this
      exact h this.symm
    have same : category.violations (rules.without .privateInternalFunctions) text =
        category.violations rules text := by
      unfold Category.violations RuleConfiguration.without
      cases category with
      | header => cases rules.header <;> simp [HeaderRules.without]
      | imports => cases rules.imports <;> simp [ImportRules.without]
      | naming => exact absurd rfl h
      | layout => cases rules.layout <;> simp [LayoutRules.without]
    rw [same]
    exact Loosened.refl own

/-! ### Findings -/

/-- What a change of the rules takes away from the violations of every category, it takes away from the findings of
    every check. -/
theorem findings_eq_filter {before after : RuleConfiguration} {keeps : Violation → Bool} {stays : Finding → Bool}
    (h : ∀ (category : Category) (text : List Char),
      category.violations after text = (category.violations before text).filter keeps)
    (hs : ∀ severities path violation, stays (Violation.toFinding severities path violation) = keeps violation)
    (sources : List Source) (severities : SeverityMap) :
    (checkSources sources after severities).findings =
      (checkSources sources before severities).findings.filter stays := by
  rw [findings_checkSources, findings_checkSources, List.filter_flatMap]
  refine List.flatMap_congr fun source _ => ?_
  have found : source.violations after = (source.violations before).filter keeps := by
    rw [Source.violations, Source.violations, List.filter_flatMap]
    exact List.flatMap_congr fun category _ => h category source.text.toList
  rw [source.findings_eq_map, source.findings_eq_map, List.filter_map, found]
  exact congrArg _ (List.filter_congr fun violation _ => (hs severities source.path violation).symm)

theorem findings_withoutCategory (sources : List Source) (rules : RuleConfiguration) (severities : SeverityMap)
    (category : Category) :
    (checkSources sources (rules.withoutCategory category) severities).findings =
      (checkSources sources rules severities).findings.filter fun finding =>
        !(category.key ++ ".").toList.isPrefixOf finding.rule.toList := by
  refine findings_eq_filter (fun c text => c.violations_withoutCategory category rules text) ?_ sources severities
  intro severities path violation
  rw [Bool.eq_iff_iff, Bool.not_eq_true', Bool.eq_false_iff, Ne, decide_eq_true_eq]
  exact not_congr (category.isPrefixOf_id_iff violation.rule)

theorem findings_without {rule : Rule} (h : rule ≠ .privateInternalFunctions) {stays : Finding → Bool}
    (hs : ∀ severities path violation, stays (Violation.toFinding severities path violation) = violation.survives rule)
    (sources : List Source) (rules : RuleConfiguration) (severities : SeverityMap) :
    (checkSources sources (rules.without rule) severities).findings =
      (checkSources sources rules severities).findings.filter stays :=
  findings_eq_filter (fun category text => category.violations_without h rules text) hs sources severities

/-- A rule that no other needs takes only its own findings with it. -/
theorem findings_without_eq_filter_ne {rule : Rule} (hl : rule ≠ .spdxLicense) (he : rule ≠ .events)
    (hp : rule ≠ .privateInternalFunctions) (sources : List Source) (rules : RuleConfiguration)
    (severities : SeverityMap) :
    (checkSources sources (rules.without rule) severities).findings =
      (checkSources sources rules severities).findings.filter (·.rule ≠ rule.id) := by
  refine findings_without hp (fun severities path violation => ?_) sources rules severities
  have needed : violation.rule.needs? ≠ some rule := by
    cases violation.rule <;> simp [Rule.needs?, hl.symm, he.symm]
  simp [Violation.toFinding, Violation.survives, needed, eq_comm]

theorem findings_without_spdxLicense (sources : List Source) (rules : RuleConfiguration) (severities : SeverityMap) :
    (checkSources sources (rules.without .spdxLicense) severities).findings =
      (checkSources sources rules severities).findings.filter fun finding =>
        finding.rule ≠ Rule.spdxLicense.id ∧ finding.rule ≠ Rule.spdxAtTop.id := by
  refine findings_without (by decide) (fun severities path violation => ?_) sources rules severities
  cases hr : violation.rule <;> simp [Violation.toFinding, Violation.survives, Rule.needs?, hr]

theorem findings_without_events (sources : List Source) (rules : RuleConfiguration) (severities : SeverityMap) :
    (checkSources sources (rules.without .events) severities).findings =
      (checkSources sources rules severities).findings.filter fun finding =>
        finding.rule ≠ Rule.events.id ∧ finding.rule ≠ Rule.eventsPastTense.id := by
  refine findings_without (by decide) (fun severities path violation => ?_) sources rules severities
  cases hr : violation.rule <;> simp [Violation.toFinding, Violation.survives, Rule.needs?, hr]

theorem Source.violations_loosened (source : Source) (rules : RuleConfiguration) :
    Loosened (source.violations rules) (source.violations (rules.without .privateInternalFunctions)) :=
  Loosened.flatMap (Category.violations_loosened rules source.text.toList) Category.all

section InnerFunctions

variable (sources : List Source) (rules : RuleConfiguration) (severities : SeverityMap)

theorem rule_ne_of_mem_findings_without_inner :
    ∀ finding ∈ (checkSources sources (rules.without .privateInternalFunctions) severities).findings,
      finding.rule ≠ Rule.privateInternalFunctions.id := by
  intro finding hf
  rw [findings_checkSources] at hf
  obtain ⟨source, -, hf⟩ := List.mem_flatMap.mp hf
  rw [source.findings_eq_map] at hf
  obtain ⟨violation, hv, rfl⟩ := List.mem_map.mp hf
  exact fun h => (source.violations_loosened rules).gone violation hv (Rule.id_injective h)

theorem filter_findings_without_inner :
    (checkSources sources (rules.without .privateInternalFunctions) severities).findings.filter
        (·.rule ≠ Rule.functions.id) =
      (checkSources sources rules severities).findings.filter fun finding =>
        finding.rule ≠ Rule.functions.id ∧ finding.rule ≠ Rule.privateInternalFunctions.id := by
  rw [findings_checkSources, findings_checkSources, List.filter_flatMap, List.filter_flatMap]
  refine List.flatMap_congr fun source _ => ?_
  rw [source.findings_eq_map, source.findings_eq_map, List.filter_map, List.filter_map]
  have kept := congrArg (List.map (·.toFinding severities source.path)) (source.violations_loosened rules).kept
  simpa [Function.comp_def, Violation.toFinding] using kept

theorem sublist_findings_without_inner :
    ((checkSources sources rules severities).findings.filter
        (·.rule ≠ Rule.privateInternalFunctions.id)).Sublist
      (checkSources sources (rules.without .privateInternalFunctions) severities).findings := by
  rw [findings_checkSources, findings_checkSources, List.filter_flatMap]
  refine List.Sublist.flatMap_right _ fun source _ => ?_
  rw [source.findings_eq_map, source.findings_eq_map, List.filter_map]
  have added := (source.violations_loosened rules).added.map (·.toFinding severities source.path)
  simpa [Function.comp_def, Violation.toFinding] using added

end InnerFunctions

/-- What disappears, stays and comes in when a category or a rule is switched off, for all files and settings. -/
theorem rules_independent (sources : List Source) (rules : RuleConfiguration) (severities : SeverityMap) :
    let findings (rules : RuleConfiguration) := (checkSources sources rules severities).findings
    (∀ category : Category, findings (rules.withoutCategory category) =
      (findings rules).filter fun finding => !(category.key ++ ".").toList.isPrefixOf finding.rule.toList) ∧
    (∀ rule : Rule, rule ≠ .spdxLicense → rule ≠ .events → rule ≠ .privateInternalFunctions →
      findings (rules.without rule) = (findings rules).filter (·.rule ≠ rule.id)) ∧
    (findings (rules.without .spdxLicense) = (findings rules).filter fun finding =>
      finding.rule ≠ Rule.spdxLicense.id ∧ finding.rule ≠ Rule.spdxAtTop.id) ∧
    (findings (rules.without .events) = (findings rules).filter fun finding =>
      finding.rule ≠ Rule.events.id ∧ finding.rule ≠ Rule.eventsPastTense.id) ∧
    (∀ finding ∈ findings (rules.without .privateInternalFunctions),
      finding.rule ≠ Rule.privateInternalFunctions.id) ∧
    ((findings (rules.without .privateInternalFunctions)).filter (·.rule ≠ Rule.functions.id) =
      (findings rules).filter fun finding =>
        finding.rule ≠ Rule.functions.id ∧ finding.rule ≠ Rule.privateInternalFunctions.id) ∧
    ((findings rules).filter (·.rule ≠ Rule.privateInternalFunctions.id)).Sublist
      (findings (rules.without .privateInternalFunctions)) :=
  ⟨findings_withoutCategory sources rules severities,
    fun _ hl he hp => findings_without_eq_filter_ne hl he hp sources rules severities,
    findings_without_spdxLicense sources rules severities, findings_without_events sources rules severities,
    rule_ne_of_mem_findings_without_inner sources rules severities,
    filter_findings_without_inner sources rules severities, sublist_findings_without_inner sources rules severities⟩

/-- A file with an inner and a public function of the wrong style, checked with and without the rule on functions in
    general. -/
theorem rules_independent_functions :
    let source : Source := ⟨"a.sol", "function Inner() internal \x7b\x7d\nfunction Outer(uint a) public \x7b\x7d\n"⟩
    (Rule.functions ≠ .spdxLicense ∧ Rule.functions ≠ .events ∧ Rule.functions ≠ .privateInternalFunctions) ∧
    (checkSources [source] .builtin {}).findings.length = 4 ∧
    (checkSources [source] (RuleConfiguration.builtin.without .functions) {}).findings.length = 3 ∧
    (checkSources [source] (RuleConfiguration.builtin.without .functions) {}).findings =
      (checkSources [source] .builtin {}).findings.filter (·.rule ≠ Rule.functions.id) := by
  intro source
  have distinct : Rule.functions ≠ .spdxLicense ∧ Rule.functions ≠ .events ∧
      Rule.functions ≠ .privateInternalFunctions := by decide
  refine ⟨distinct, by decide +kernel, by decide +kernel, ?_⟩
  exact (rules_independent [source] .builtin {}).2.1 .functions distinct.1 distinct.2.1 distinct.2.2

end SolidityLint

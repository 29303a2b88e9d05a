import SolidityLint.Check

/-! Passes only append. All passes over all files write to one result, so the findings of a file could depend on
    those in front of it. They do not: a pass adds to every result the same findings (`Appends`), which are those of
    the violations of its category. From there on the result of a check is known in closed form, and files are
    checked independently of each other. -/

namespace SolidityLint

/-- A step of a check that adds the same findings to every result and changes nothing else. -/
def Appends (step : CheckResult → CheckResult) (found : List Finding) : Prop :=
  ∀ result, step result = { result with findings := result.findings ++ found }

namespace Appends

variable {step next : CheckResult → CheckResult} {found more : List Finding}

theorem none : Appends (fun result => result) [] := by
  intro result
  simp

theorem comp (h : Appends step found) (hn : Appends next more) :
    Appends (fun result => next (step result)) (found ++ more) := by
  intro result
  show next (step result) = _
  rw [hn, h, List.append_assoc]

/-- Steps for the elements of a list, one after another. -/
theorem foldl {α : Type} {step : CheckResult → α → CheckResult} {found : α → List Finding}
    (h : ∀ a, Appends (fun result => step result a) (found a)) (items : List α) :
    Appends (fun result => items.foldl step result) (items.flatMap found) := by
  induction items with
  | nil => exact none
  | cons item rest ih => exact (h item).comp ih

/-- What a step finds is what it adds to an empty result. -/
theorem findings_empty (h : Appends step found) : (step {}).findings = found := by
  rw [h]
  rfl

end Appends

/-! ### The passes -/

theorem CheckContext.record_appends (context : CheckContext) (violations : List Violation) :
    Appends (fun result => context.record result violations) (violations.map context.finding) := by
  intro result
  exact CheckResult.extend_eq _ _

theorem CheckContext.recordEach_appends {α : Type} (context : CheckContext) (violations : α → List Violation)
    (items : List α) :
    Appends (fun result => context.recordEach violations result items)
      ((items.flatMap violations).map context.finding) := by
  rw [List.map_flatMap]
  exact Appends.foldl (fun item => context.record_appends (violations item)) items

/-- Items that are looked at only under a condition. -/
theorem CheckContext.recordEach_appends_ite {α : Type} (context : CheckContext) (c : Bool)
    (violations : α → List Violation) (items : List α) :
    Appends (fun result => if c then context.recordEach violations result items else result)
      ((if c then items.flatMap violations else []).map context.finding) := by
  cases c with
  | false => exact Appends.none
  | true => exact context.recordEach_appends violations items

namespace Check

theorem headerPass_appends (context : CheckContext) (rules : HeaderRules) :
    Appends (headerPass context rules) ((header rules context.text).map context.finding) := by
  rw [header, List.map_append]
  exact (context.record_appends _).comp (context.record_appends _)

theorem importsPass_appends (context : CheckContext) (rules : ImportRules) :
    Appends (importsPass context rules) ((imports rules context.text).map context.finding) :=
  context.recordEach_appends _ _

theorem layoutPass_appends (context : CheckContext) (rules : LayoutRules) :
    Appends (layoutPass context rules) ((layout rules context.text).map context.finding) :=
  context.recordEach_appends _ _

/-- With the three rules on functions off, a function declaration violates nothing. -/
theorem function_eq_nil {rules : NamingRules}
    (h : (rules.functions || rules.privateInternalFunctions || rules.functionArguments) = false)
    (found : Nat × Declaration.FunctionSpan) : function rules found = [] := by
  simp only [Bool.or_eq_false_iff] at h
  simp [function, functionName, functionArguments, h]

theorem namingPass_appends (context : CheckContext) (rules : NamingRules) :
    Appends (namingPass context rules) ((naming rules context.text).map context.finding) := by
  have functions : (Declaration.functions context.text).flatMap (function rules) =
      if rules.functions || rules.privateInternalFunctions || rules.functionArguments then
        (Declaration.functions context.text).flatMap (function rules) else [] := by
    split
    · rfl
    · rename_i off
      exact List.flatMap_eq_nil_iff.mpr fun found _ => function_eq_nil (Bool.eq_false_iff.mpr off) found
  rw [naming, functions, List.map_append, List.map_append, List.map_append]
  exact (((context.recordEach_appends_ite _ contract _).comp (context.recordEach_appends_ite _ (function rules) _)).comp
    (context.recordEach_appends_ite _ (event rules) _)).comp (context.recordEach_appends_ite _ constant _)

end Check

/-- The findings of the violations of a category, in a file. -/
theorem Category.pass_appends (category : Category) (context : CheckContext) :
    Appends (category.pass context) ((category.violations context.rules context.text).map context.finding) := by
  cases category with
  | header =>
    unfold Category.pass Category.violations
    cases context.rules.header with
    | none => exact Appends.none
    | some rules => exact Check.headerPass_appends context rules
  | imports =>
    unfold Category.pass Category.violations
    cases context.rules.imports with
    | none => exact Appends.none
    | some rules => exact Check.importsPass_appends context rules
  | naming =>
    unfold Category.pass Category.violations
    cases context.rules.naming with
    | none => exact Appends.none
    | some rules => exact Check.namingPass_appends context rules
  | layout =>
    unfold Category.pass Category.violations
    cases context.rules.layout with
    | none => exact Appends.none
    | some rules => exact Check.layoutPass_appends context rules

/-! ### The closed form of a check -/

theorem Source.findingsOf_eq (source : Source) (rules : RuleConfiguration) (severities : SeverityMap)
    (category : Category) :
    source.findingsOf rules severities category =
      (category.violations rules source.text.toList).map (·.toFinding severities source.path) :=
  (category.pass_appends ⟨source, rules, severities⟩).findings_empty

/-- A pass adds to a result what it finds by itself. -/
theorem Category.pass_eq (category : Category) (source : Source) (rules : RuleConfiguration)
    (severities : SeverityMap) (result : CheckResult) :
    category.pass ⟨source, rules, severities⟩ result =
      { result with findings := result.findings ++ source.findingsOf rules severities category } := by
  rw [source.findingsOf_eq]
  exact category.pass_appends ⟨source, rules, severities⟩ result

/-- The findings of all categories in a file. -/
def Source.findings (source : Source) (rules : RuleConfiguration) (severities : SeverityMap) : List Finding :=
  Category.all.flatMap (source.findingsOf rules severities)

/-- The violations that all categories find in a file. -/
def Source.violations (source : Source) (rules : RuleConfiguration) : List Violation :=
  Category.all.flatMap fun category => category.violations rules source.text.toList

theorem Source.findings_eq_map (source : Source) (rules : RuleConfiguration) (severities : SeverityMap) :
    source.findings rules severities = (source.violations rules).map (·.toFinding severities source.path) := by
  rw [Source.findings, Source.violations, List.map_flatMap, funext (source.findingsOf_eq rules severities)]

theorem CheckContext.check_eq (source : Source) (rules : RuleConfiguration) (severities : SeverityMap)
    (result : CheckResult) :
    CheckContext.check ⟨source, rules, severities⟩ result =
      ⟨result.files ++ [source.path], result.findings ++ source.findings rules severities⟩ :=
  Appends.foldl (fun category => category.pass_eq source rules severities) Category.all
    (result.addFile source.path)

/-- What a check that goes on from a result adds to it. -/
theorem foldl_check_eq (sources : List Source) (rules : RuleConfiguration) (severities : SeverityMap)
    (result : CheckResult) :
    sources.foldl (fun result source => CheckContext.check ⟨source, rules, severities⟩ result) result =
      ⟨result.files ++ sources.map (·.path), result.findings ++ sources.flatMap (·.findings rules severities)⟩ := by
  induction sources generalizing result with
  | nil => simp
  | cons source rest ih =>
    rw [List.foldl_cons, ih, CheckContext.check_eq]
    simp

theorem checkSources_eq (sources : List Source) (rules : RuleConfiguration) (severities : SeverityMap) :
    checkSources sources rules severities =
      ⟨sources.map (·.path), sources.flatMap (·.findings rules severities)⟩ :=
  foldl_check_eq sources rules severities {}

@[simp] theorem files_checkSources (sources : List Source) (rules : RuleConfiguration) (severities : SeverityMap) :
    (checkSources sources rules severities).files = sources.map (·.path) := by
  rw [checkSources_eq]

theorem findings_checkSources (sources : List Source) (rules : RuleConfiguration) (severities : SeverityMap) :
    (checkSources sources rules severities).findings = sources.flatMap (·.findings rules severities) := by
  rw [checkSources_eq]

theorem checkSources_append (first second : List Source) (rules : RuleConfiguration) (severities : SeverityMap) :
    checkSources (first ++ second) rules severities =
      checkSources first rules severities ++ checkSources second rules severities := by
  rw [checkSources_eq, checkSources_eq, checkSources_eq, List.map_append, List.flatMap_append]
  rfl

/-! ### Counts and verdict of two results together -/

namespace CheckResult

variable (first second : CheckResult)

theorem files_append : (first ++ second).files = first.files ++ second.files := rfl

theorem findings_append : (first ++ second).findings = first.findings ++ second.findings := rfl

theorem summary_append :
    (first ++ second).summary =
      { files := first.summary.files + second.summary.files, error := first.summary.error + second.summary.error,
        warning := first.summary.warning + second.summary.warning,
        info := first.summary.info + second.summary.info } := by
  simp only [summary, Summary.ofFindings, files_append, findings_append, List.length_append, List.countP_append]

theorem exitCode_append : (first ++ second).exitCode = max first.exitCode second.exitCode := by
  have blocking : (first ++ second).hasBlocking = (first.hasBlocking || second.hasBlocking) := List.any_append
  unfold exitCode
  rw [blocking]
  cases first.hasBlocking <;> cases second.hasBlocking <;> rfl

end CheckResult

/-- Checking two lists of files gives what checking each of them gives, one after the other; a single file has the
    findings of the four passes in their order; and what a pass adds to a result does not depend on the result. -/
theorem files_and_passes_independent (rules : RuleConfiguration) (severities : SeverityMap) :
    (∀ first second : List Source,
      let one := checkSources first rules severities
      let two := checkSources second rules severities
      let both := checkSources (first ++ second) rules severities
      both.files = one.files ++ two.files ∧ both.findings = one.findings ++ two.findings ∧
        both.summary =
          { files := one.summary.files + two.summary.files, error := one.summary.error + two.summary.error,
            warning := one.summary.warning + two.summary.warning, info := one.summary.info + two.summary.info } ∧
        both.exitCode = max one.exitCode two.exitCode) ∧
    (∀ source : Source,
      (checkSources [source] rules severities).findings =
        source.findingsOf rules severities .header ++ source.findingsOf rules severities .imports ++
          source.findingsOf rules severities .naming ++ source.findingsOf rules severities .layout) ∧
    (∀ (source : Source) (category : Category) (result : CheckResult),
      category.pass ⟨source, rules, severities⟩ result =
        { files := result.files, findings := result.findings ++ source.findingsOf rules severities category }) := by
  refine ⟨fun first second => ?_, fun source => ?_, fun source category result => ?_⟩
  · rw [checkSources_append]
    exact ⟨rfl, rfl, CheckResult.summary_append _ _, CheckResult.exitCode_append _ _⟩
  · rw [findings_checkSources]
    simp [Source.findings, Category.all]
  · exact category.pass_eq source rules severities result

end SolidityLint

import SolidityLint.Proofs.Check.Declarations
import SolidityLint.Proofs.Check.Messages
import SolidityLint.Proofs.Declaration.Visibility

/-! What is found about functions. The visibility of a function decides which of two rules looks at its name: the style
    of inner functions where that rule is on, and the common style of functions elsewhere, so no name is found by
    both. After the name come the arguments. -/

namespace SolidityLint

open Text Declaration

/-! ### Functions among the names -/

theorem filter_naming_functions (rules : NamingRules) (text : List Char) :
    (Check.naming rules text).filter (·.rule ∈ [.functions, .privateInternalFunctions, .functionArguments]) =
      (functions text).flatMap (Check.function rules) := by
  rw [Check.naming, List.filter_append, List.filter_append, List.filter_append,
    (Check.contracts_inPlace text).ite.filter_eq_nil (by decide), (Check.functions_inPlace rules text).filter_eq_self,
    (Check.events_inPlace rules text).ite.filter_eq_nil (by decide),
    (Check.constants_inPlace text).ite.filter_eq_nil (by decide), List.nil_append, List.append_nil, List.append_nil]

/-! ### Names and arguments -/

section

variable {source : Source} {severities : SeverityMap} {rule code : String} {style : NameStyle} {line : Nat}
  {name : List Char} {message : String}

theorem length_misnamed_le : (misnamed source severities rule code style line name message).length ≤ 1 := by
  unfold misnamed
  split
  · exact Nat.zero_le 1
  · exact Nat.le_refl 1

theorem code_of_mem_misnamed {finding : Finding}
    (h : finding ∈ misnamed source severities rule code style line name message) : finding.code = code := by
  unfold misnamed at h
  split at h
  · cases h
  · rw [List.mem_singleton.mp h]

end

/-- Names that are looked at in turn. -/
theorem map_names (source : Source) (severities : SeverityMap) (rule : Rule) (style : NameStyle) (line : Nat)
    (message : List Char → String) {names : List (List Char)} (hn : ∀ name ∈ names, '\n' ∉ name) :
    ((names.filter fun name => !style.admits name).map fun name => (⟨line, rule, message name⟩ : Violation)).map
        (·.toFinding severities source.path) =
      names.flatMap fun name => misnamed source severities rule.id rule.code style line name (message name) := by
  induction names with
  | nil => rfl
  | cons name rest ih =>
    obtain ⟨hn, hr⟩ := List.forall_mem_cons.mp hn
    rw [List.flatMap_cons, ← ih hr, ← map_toFinding_eq_misnamed source severities rule style line hn]
    cases admitted : style.admits name <;> simp [admitted]

section

variable (source : Source) (rules : RuleConfiguration) (severities : SeverityMap) (found : Nat × FunctionSpan)

/-- The finding about the name of a function with a visibility. -/
def misnamedFunction (visibility : String) : List Finding :=
  let name := found.2.name
  if (visibility = "private" ∨ visibility = "internal") ∧ rules.enables .privateInternalFunctions then
    misnamed source severities "naming.privateInternalFunctions" "PrivateInternalFunctionNaming" .underscoreMixedCase
      found.1 name (visibility ++ " function '" ++ String.ofList name ++ "' should use _underscoreMixedCase style")
  else if rules.enables .functions then
    misnamed source severities "naming.functions" "FunctionNaming" .mixedCase found.1 name
      ("Function name '" ++ String.ofList name ++ "' should use mixedCase style")
  else []

/-- The findings about the arguments of a function, all on the line where the function begins. -/
def misnamedArguments : List Finding :=
  if rules.enables .functionArguments then
    (argumentNames found.2.arguments).flatMap fun name =>
      misnamed source severities "naming.functionArguments" "FunctionArgumentNaming" .underscoreMixedCase found.1 name
        ("Function argument '" ++ String.ofList name ++ "' should use _underscoreMixedCase style")
  else []

variable {naming : NamingRules} (h : rules.naming = some naming)

include h

theorem map_functionName (hn : '\n' ∉ found.2.name) :
    (Check.functionName naming found).map (·.toFinding severities source.path) =
      misnamedFunction source rules severities found (visibility found.2.tail) := by
  have inner : rules.enables .privateInternalFunctions = naming.privateInternalFunctions := by
    rw [enables_of_naming rules h rfl, NamingRules.setting, Setting.isOn_ofSwitch]
  have common : rules.enables .functions = naming.functions := by
    rw [enables_of_naming rules h rfl, NamingRules.setting, Setting.isOn_ofSwitch]
  have kind (visibility : String) : visibility ++ " function" ++ " '" = visibility ++ " function '" := by
    rw [String.append_assoc]
    rfl
  have innerMessage : Check.styleMessage (visibility found.2.tail ++ " function") found.2.name
      NameStyle.underscoreMixedCase.name = visibility found.2.tail ++ " function '" ++ String.ofList found.2.name ++
        "' should use _underscoreMixedCase style" := styleMessage_eq (kind _) rfl _
  have commonMessage : Check.styleMessage "Function name" found.2.name NameStyle.mixedCase.name =
      "Function name '" ++ String.ofList found.2.name ++ "' should use mixedCase style" := styleMessage_eq rfl rfl _
  rw [Check.functionName, misnamedFunction, inner, common, innerMessage, commonMessage]
  by_cases hi : (visibility found.2.tail = "private" ∨ visibility found.2.tail = "internal") ∧
      naming.privateInternalFunctions = true
  · rw [if_pos hi, if_pos (by simpa [Check.isInner] using hi)]
    exact map_toFinding_eq_misnamed source severities .privateInternalFunctions .underscoreMixedCase found.1 hn _
  · rw [if_neg hi, if_neg (by simpa [Check.isInner] using hi)]
    cases naming.functions with
    | false => rfl
    | true =>
      rw [if_pos rfl]
      refine Eq.trans ?_ (map_toFinding_eq_misnamed source severities .functions .mixedCase found.1 hn _)
      cases NameStyle.mixedCase.admits found.2.name <;> rfl

theorem map_functionArguments :
    (Check.functionArguments naming found).map (·.toFinding severities source.path) =
      misnamedArguments source rules severities found := by
  have on : rules.enables .functionArguments = naming.functionArguments := by
    rw [enables_of_naming rules h rfl, NamingRules.setting, Setting.isOn_ofSwitch]
  have message (name : List Char) : Check.styleMessage "Function argument" name NameStyle.underscoreMixedCase.name =
      "Function argument '" ++ String.ofList name ++ "' should use _underscoreMixedCase style" :=
    styleMessage_eq rfl rfl name
  rw [Check.functionArguments, misnamedArguments, on]
  cases naming.functionArguments with
  | false => rfl
  | true =>
    rw [if_pos rfl, if_pos rfl]
    simp only [message]
    exact map_names source severities .functionArguments .underscoreMixedCase found.1 _
      fun name => newline_notMem_of_mem_argumentNames

theorem map_function (hf : found ∈ functions source.text.toList) :
    (Check.function naming found).map (·.toFinding severities source.path) =
      misnamedFunction source rules severities found (visibility found.2.tail) ++
        misnamedArguments source rules severities found := by
  have named : '\n' ∉ found.2.name :=
    newline_notMem_of_mem_occurrences (fun _ _ _ => FunctionSpan.exists_identifier?) (List.mem_filter.mp hf).1
  rw [Check.function, List.map_append, map_functionName source rules severities found h named,
    map_functionArguments source rules severities found h]

end

/-! ### The policy -/

section

variable (source : Source) (rules : RuleConfiguration) (severities : SeverityMap) (found : Nat × FunctionSpan)

/-- What the three rules on functions find, function by function. -/
theorem filter_findings_functions :
    (checkSources [source] rules severities).findings.filter
        (·.rule ∈ ["naming.functions", "naming.privateInternalFunctions", "naming.functionArguments"]) =
      (functions source.text.toList).flatMap fun found =>
        misnamedFunction source rules severities found (visibility found.2.tail) ++
          misnamedArguments source rules severities found := by
  have place : ∀ rule ∈ [Rule.functions, .privateInternalFunctions, .functionArguments], rule.category = .naming := by
    simp [Rule.category]
  refine (filter_findings_naming source rules severities place).trans ?_
  cases h : rules.naming with
  | none =>
    have off rule (hr : rule ∈ [Rule.functions, .privateInternalFunctions, .functionArguments]) :=
      enables_of_naming_eq_none rules h (place rule hr)
    simp only [List.forall_mem_cons] at off
    simp [misnamedFunction, misnamedArguments, off]
  | some naming =>
    dsimp only
    rw [filter_naming_functions, List.map_flatMap]
    exact List.flatMap_congr fun found hf => map_function source rules severities found h hf

theorem length_misnamedFunction_le (visibility : String) :
    (misnamedFunction source rules severities found visibility).length ≤ 1 := by
  unfold misnamedFunction
  split
  · exact length_misnamed_le
  · split
    · exact length_misnamed_le
    · exact Nat.zero_le 1

theorem code_of_mem_misnamedArguments {finding : Finding}
    (h : finding ∈ misnamedArguments source rules severities found) : finding.code = "FunctionArgumentNaming" := by
  unfold misnamedArguments at h
  split at h
  · obtain ⟨name, -, h⟩ := List.mem_flatMap.mp h
    exact code_of_mem_misnamed h
  · cases h

end

/-- The three rules on functions find, function by function, at most one thing about the name and then what is wrong
    with the arguments. The visibility is the first one that the tail has as a whole word, and `internal` if it has none.
    Where it keeps a function inside and that rule is on, only the style of inner functions is asked of the name. -/
theorem functions_by_visibility (source : Source) (rules : RuleConfiguration) (severities : SeverityMap) :
    (checkSources [source] rules severities).findings.filter
        (·.rule ∈ ["naming.functions", "naming.privateInternalFunctions", "naming.functionArguments"]) =
      (functions source.text.toList).flatMap (fun found =>
        misnamedFunction source rules severities found (visibility found.2.tail) ++
          misnamedArguments source rules severities found) ∧
    (∀ tail v, visibility tail = v ↔ ∃ first, First (VisibilityAt tail) first ∧ v = first.getD "internal") ∧
    ∀ found v, (misnamedFunction source rules severities found v).length ≤ 1 ∧
      (v = "private" ∨ v = "internal" → rules.enables .privateInternalFunctions = true →
        ∀ finding ∈ misnamedFunction source rules severities found v ++ misnamedArguments source rules severities found,
          finding.code ≠ "FunctionNaming") := by
  refine ⟨filter_findings_functions source rules severities, fun tail v => visibility_eq_iff, fun found v =>
    ⟨length_misnamedFunction_le source rules severities found v, fun inner on finding hf => ?_⟩⟩
  rcases List.mem_append.mp hf with hf | hf
  · rw [misnamedFunction, if_pos ⟨inner, on⟩] at hf
    rw [code_of_mem_misnamed hf]
    decide
  · rw [code_of_mem_misnamedArguments source rules severities found hf]
    decide

/-- A visibility inside another word is none, and without one a function counts as inner. -/
theorem functions_by_visibility_modifier :
    let source : Source := ⟨"a.sol",
      "function a(uint x) publicly private \x7b\x7d\nfunction Bc(uint _x) view \x7b\x7d function Cd() public \x7b\x7d"⟩
    let tail := "publicly private".toList
    let inner : Nat × FunctionSpan := (1, ⟨[' '], ['a'], [], [], "uint x".toList, [' '], tail, [' ']⟩)
    (functions source.text.toList).head? = some inner ∧
    ((checkSources [source] .builtin {}).findings.filter
      (·.rule ∈ ["naming.functions", "naming.privateInternalFunctions", "naming.functionArguments"])).map
        (fun finding => (finding.line, finding.message)) =
      [(1, "private function 'a' should use _underscoreMixedCase style"),
        (1, "Function argument 'x' should use _underscoreMixedCase style"),
        (2, "internal function 'Bc' should use _underscoreMixedCase style"),
        (2, "Function name 'Cd' should use mixedCase style")] ∧
    (∃ first, First (VisibilityAt tail) first ∧ "private" = first.getD "internal") ∧
    ∀ finding ∈ misnamedFunction source .builtin {} inner "private" ++ misnamedArguments source .builtin {} inner,
      finding.code ≠ "FunctionNaming" := by
  intro source tail inner
  obtain ⟨-, visible, exclusive⟩ := functions_by_visibility source .builtin {}
  have read : visibility tail = "private" := by decide +kernel
  exact ⟨by decide +kernel, by decide +kernel, (visible tail "private").mp read,
    (exclusive inner "private").2 (Or.inl rfl) (by decide)⟩

end SolidityLint

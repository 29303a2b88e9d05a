import Mathlib.Data.Char
import Mathlib.Data.List.Chain
import Mathlib.Data.List.Infix
import Mathlib.Data.List.Lex
import SolidityLint.Proofs.Check.Places

/-! What is found about imports, rule by rule. A statement is looked at by itself, for whether it names what it takes,
    and with the one in front of it, for the order of their paths; a line holds one statement at most, so the line of
    a finding tells its statement. -/

namespace SolidityLint

open Text Declaration

/-! ### Findings by their code -/

section

variable (source : Source) (rules : RuleConfiguration) (severities : SeverityMap)

theorem filter_code_findingsOf (category : Category) (rule : Rule) :
    (source.findingsOf rules severities category).filter (·.code = rule.code) =
      ((category.violations rules source.text.toList).filter (·.rule = rule)).map
        (·.toFinding severities source.path) := by
  have same (violation : Violation) : (violation.toFinding severities source.path).code = rule.code ↔
      violation.rule = rule := Rule.code_inj
  rw [source.findingsOf_eq, List.filter_map]
  simp only [Function.comp_def, same]

end

namespace Check

theorem filter_namedOnly_neighbours (rules : ImportRules) (pair : Option ImportLine × ImportLine) :
    (neighbours rules pair).filter (·.rule = .namedOnly) = namedOnly rules pair.2 := by
  have named : (namedOnly rules pair.2).filter (·.rule = .namedOnly) = namedOnly rules pair.2 := by
    unfold namedOnly
    split <;> rfl
  have ordered : (alphabetical rules pair.1 pair.2).filter (·.rule = .namedOnly) = [] := by
    unfold alphabetical
    split
    · split <;> rfl
    · rfl
  rw [neighbours, List.filter_append, named, ordered, List.append_nil]

theorem filter_alphabetical_neighbours (rules : ImportRules) (pair : Option ImportLine × ImportLine) :
    (neighbours rules pair).filter (·.rule = .alphabetical) = alphabetical rules pair.1 pair.2 := by
  have named : (namedOnly rules pair.2).filter (·.rule = .alphabetical) = [] := by
    unfold namedOnly
    split <;> rfl
  have ordered : (alphabetical rules pair.1 pair.2).filter (·.rule = .alphabetical) =
      alphabetical rules pair.1 pair.2 := by
    unfold alphabetical
    split
    · split <;> rfl
    · rfl
  rw [neighbours, List.filter_append, named, ordered, List.nil_append]

theorem mem_namedOnly_iff {rules : ImportRules} {current : ImportLine} {violation : Violation} :
    violation ∈ namedOnly rules current ↔ rules.namedOnly = true ∧ NamedImport.read? current.text = none ∧
      violation = ⟨current.line, .namedOnly, "Use named imports: import \x7bContract\x7d from \"./file.sol\""⟩ := by
  simp only [namedOnly, Bool.and_eq_true, Option.isNone_iff_eq_none, List.mem_ite_nil_right, List.mem_singleton,
    and_assoc]

theorem mem_alphabetical_iff {rules : ImportRules} {previous : Option ImportLine} {current : ImportLine}
    {violation : Violation} :
    violation ∈ alphabetical rules previous current ↔ rules.alphabetical = true ∧
      ∃ before own, previous.bind ImportLine.path? = some before ∧ current.path? = some own ∧ own < before ∧
        violation = ⟨current.line, .alphabetical, "Imports should be alphabetically ordered ('" ++ String.ofList own ++
          "' after '" ++ String.ofList before ++ "')"⟩ := by
  unfold alphabetical
  split
  · rename_i own before on here there
    simp [on, here, there]
  · rename_i other
    refine iff_of_false List.not_mem_nil ?_
    rintro ⟨on, before, own, there, here, -⟩
    exact other own before on here there

/-- Statements are neighbours just if they are looked at together. -/
theorem mem_withPrevious_iff {statements : List ImportLine} {previous current : ImportLine} :
    (some previous, current) ∈ withPrevious statements ↔ [previous, current] <:+: statements := by
  have further (first : ImportLine) (rest : List ImportLine) :
      (some previous, current) ∈ ((first :: rest).map some).zip rest ↔ [previous, current] <:+: first :: rest := by
    induction rest generalizing first with
    | nil => simp [List.infix_cons_iff]
    | cons second rest ih =>
      rw [List.infix_cons_iff, ← ih second]
      simp [List.cons_prefix_cons]
  cases statements with
  | nil => simp [withPrevious]
  | cons first rest => simpa [withPrevious] using further first rest

end Check

/-! ### What is found for each of the two rules -/

section

variable {source : Source} {rules : RuleConfiguration} {severities : SeverityMap}

theorem mem_filter_code_imports_iff (rule : Rule) {finding : Finding} :
    finding ∈ (source.findingsOf rules severities .imports).filter (·.code = rule.code) ↔
      ∃ settings, rules.imports = some settings ∧ ∃ pair ∈ Check.withPrevious (imports source.lines),
        ∃ violation ∈ (Check.neighbours settings pair).filter (·.rule = rule),
          violation.toFinding severities source.path = finding := by
  rw [filter_code_findingsOf, Category.violations]
  cases rules.imports with
  | none => simp
  | some settings =>
    rw [Option.map_some, Option.getD_some, Check.imports, Check.importList, List.filter_flatMap]
    constructor
    · intro hf
      obtain ⟨violation, hv, same⟩ := List.mem_map.mp hf
      obtain ⟨pair, hp, hv⟩ := List.mem_flatMap.mp hv
      exact ⟨settings, rfl, pair, hp, violation, hv, same⟩
    · rintro ⟨_, same, pair, hp, violation, hv, rfl⟩
      cases same
      exact List.mem_map_of_mem (List.mem_flatMap.mpr ⟨pair, hp, hv⟩)

theorem enables_imports_iff (rule : Rule) (own : rule.category = .imports) :
    rules.enables rule = true ↔ ∃ settings, rules.imports = some settings ∧ (settings.setting rule).isOn = true := by
  rw [RuleConfiguration.enables, own, RuleConfiguration.settings?, Option.any_map, Option.any_eq_true]

/-- The finding about a statement that does not name what it takes. -/
def unnamed (path : RawText) (severities : SeverityMap) (line : Nat) : Finding :=
  { path, line, rule := "imports.namedOnly", code := "NamedImportRequired",
    message := "Use named imports: import \x7bContract\x7d from \"./file.sol\"",
    severity := severities.resolve "imports.namedOnly" }

/-- The finding about a statement whose path comes before that of the statement in front of it. -/
def misplaced (path : RawText) (severities : SeverityMap) (line : Nat) (before own : List Char) : Finding :=
  { path, line, rule := "imports.alphabetical", code := "ImportsNotAlphabetical",
    message := "Imports should be alphabetically ordered ('" ++ String.ofList own ++ "' after '" ++
      String.ofList before ++ "')",
    severity := severities.resolve "imports.alphabetical" }

theorem mem_unnamed_iff {finding : Finding} :
    finding ∈ (source.findingsOf rules severities .imports).filter (·.code = "NamedImportRequired") ↔
      rules.enables .namedOnly = true ∧ ∃ statement ∈ imports source.lines, NamedImport.read? statement.text = none ∧
        finding = unnamed source.path severities statement.line := by
  rw [enables_imports_iff .namedOnly rfl]
  simp only [ImportRules.setting, Setting.isOn_ofSwitch]
  constructor
  · intro hf
    obtain ⟨settings, here, pair, hp, violation, hv, rfl⟩ := (mem_filter_code_imports_iff .namedOnly).mp hf
    rw [Check.filter_namedOnly_neighbours, Check.mem_namedOnly_iff] at hv
    obtain ⟨on, other, rfl⟩ := hv
    refine ⟨⟨settings, here, on⟩, pair.2, ?_, other, rfl⟩
    rw [← Check.map_snd_withPrevious (imports source.lines)]
    exact List.mem_map_of_mem hp
  · rintro ⟨⟨settings, here, on⟩, statement, hs, other, rfl⟩
    rw [← Check.map_snd_withPrevious (imports source.lines)] at hs
    obtain ⟨pair, hp, rfl⟩ := List.mem_map.mp hs
    have hv := Check.mem_namedOnly_iff.mpr ⟨on, other, rfl⟩
    rw [← Check.filter_namedOnly_neighbours] at hv
    exact (mem_filter_code_imports_iff .namedOnly).mpr ⟨settings, here, pair, hp, _, hv, rfl⟩

theorem mem_misplaced_iff {finding : Finding} :
    finding ∈ (source.findingsOf rules severities .imports).filter (·.code = "ImportsNotAlphabetical") ↔
      rules.enables .alphabetical = true ∧ ∃ previous current before own,
        [previous, current] <:+: imports source.lines ∧ previous.path? = some before ∧ current.path? = some own ∧
          own < before ∧ finding = misplaced source.path severities current.line before own := by
  rw [enables_imports_iff .alphabetical rfl]
  simp only [ImportRules.setting, Setting.isOn_ofSwitch]
  constructor
  · intro hf
    obtain ⟨settings, here, ⟨previous?, current⟩, hp, violation, hv, rfl⟩ :=
      (mem_filter_code_imports_iff .alphabetical).mp hf
    rw [Check.filter_alphabetical_neighbours, Check.mem_alphabetical_iff] at hv
    obtain ⟨on, before, own, there, path, less, rfl⟩ := hv
    obtain ⟨previous, rfl, there⟩ := Option.bind_eq_some_iff.mp there
    have neighbours := Check.mem_withPrevious_iff.mp hp
    exact ⟨⟨settings, here, on⟩, previous, current, before, own, neighbours, there, path, less, rfl⟩
  · rintro ⟨⟨settings, here, on⟩, previous, current, before, own, neighbours, there, path, less, rfl⟩
    have hv : _ ∈ Check.alphabetical settings (some previous) current :=
      Check.mem_alphabetical_iff.mpr ⟨on, before, own, there, path, less, rfl⟩
    rw [← Check.filter_alphabetical_neighbours settings (some previous, current)] at hv
    exact (mem_filter_code_imports_iff .alphabetical).mpr
      ⟨settings, here, (some previous, current), Check.mem_withPrevious_iff.mpr neighbours, _, hv, rfl⟩

theorem clean_iff_isSome_read? (on : rules.enables .namedOnly = true) {statement : ImportLine}
    (hs : statement ∈ imports source.lines) :
    (∀ finding ∈ source.findingsOf rules severities .imports, finding.code = "NamedImportRequired" →
      finding.line ≠ statement.line) ↔ (NamedImport.read? statement.text).isSome = true := by
  constructor
  · intro clean
    rw [Option.isSome_iff_ne_none]
    intro unread
    obtain ⟨hf, code⟩ := List.mem_filter.mp (mem_unnamed_iff.mpr ⟨on, statement, hs, unread, rfl⟩)
    exact clean _ hf (of_decide_eq_true code) rfl
  · intro named finding hf code same
    obtain ⟨-, other, ho, unread, rfl⟩ := mem_unnamed_iff.mp (List.mem_filter.mpr ⟨hf, decide_eq_true code⟩)
    obtain rfl := eq_of_line_eq ho hs (Int.ofNat.inj same)
    rw [unread] at named
    cases named

end

/-- With the rule on, nothing is found about an import just if it is a named import as a whole, which it is in one way
    at most. It has a path then, and if no quotes stand between its braces the path is that at its end. -/
theorem named_imports_exact (source : Source) (rules : RuleConfiguration) (severities : SeverityMap)
    (on : rules.enables .namedOnly = true) :
    ∀ statement ∈ imports source.lines,
      ((∀ finding ∈ source.findingsOf rules severities .imports, finding.code = "NamedImportRequired" →
          finding.line ≠ statement.line) ↔
        ∃ span : NamedImportSpan, span.WellFormed ∧ statement.text = span.chars) ∧
      ∀ span : NamedImportSpan, span.WellFormed → statement.text = span.chars →
        (∀ other : NamedImportSpan, other.WellFormed → statement.text = other.chars → other = span) ∧
        statement.path?.isSome = true ∧
        ((∀ c ∈ span.names, isQuote c = false) → statement.path? = some span.clause.path) := by
  intro statement hs
  rw [clean_iff_isSome_read? on hs, NamedImportSpan.isSome_read?_iff]
  refine ⟨Iff.rfl, fun span formed text => ⟨fun other formed' text' => ?_, ?_, fun plain => ?_⟩⟩
  · exact NamedImportSpan.chars_injective formed' formed (text'.symm.trans text)
  · rw [ImportLine.path?, text]
    exact formed.isSome_importPath?
  · rw [ImportLine.path?, text]
    exact formed.importPath?_eq plain

/-- The word `from` between the braces of the first import does no harm, a clause in quotes between those of the second
    one hides the path at its end, and the third import names nothing. -/
theorem named_imports_exact_quotes_between_braces :
    let text := "import \x7bfrom\x7d\tfrom './a.sol\";\n import \x7bfrom 'b'\x7d from 'c'\nimport \"d\";"
    let source : Source := ⟨"a.sol", text⟩
    let found := source.findingsOf .builtin {} .imports
    let clause : FromClause := ⟨[' '], '\'', "./a.sol".toList, '"'⟩
    let span : NamedImportSpan := ⟨[' '], "from".toList, ['\t'], clause, [';']⟩
    let quoted : NamedImportSpan := ⟨[' '], "from 'b'".toList, [' '], ⟨[' '], '\'', ['c'], '\''⟩, []⟩
    RuleConfiguration.builtin.enables .namedOnly = true ∧
    imports source.lines = [⟨span.chars, 1⟩, ⟨quoted.chars, 2⟩, ⟨"import \"d\";".toList, 3⟩] ∧
    found = [unnamed source.path {} 3] ∧
    span.WellFormed ∧ ImportLine.path? ⟨span.chars, 1⟩ = some "./a.sol".toList ∧
    (∀ finding ∈ found, finding.code = "NamedImportRequired" → finding.line ≠ 1) ∧
    quoted.WellFormed ∧ ImportLine.path? ⟨quoted.chars, 2⟩ = some ['b'] := by
  intro text source found clause span quoted
  have on : RuleConfiguration.builtin.enables .namedOnly = true := by decide
  have statements : imports source.lines =
      [⟨span.chars, 1⟩, ⟨quoted.chars, 2⟩, ⟨"import \"d\";".toList, 3⟩] := by decide +kernel
  have blank : Blanks [' '] := List.forall_mem_singleton.mpr (by decide)
  have tab : Blanks ['\t'] := List.forall_mem_singleton.mpr (by decide)
  have names : ∀ c ∈ span.names, isQuote c = false := by simp [span, isQuote]
  have path : ∀ c ∈ clause.path, isQuote c = false := by simp [clause, isQuote]
  have formed : span.WellFormed :=
    ⟨blank, List.cons_ne_nil _ _, by simp [span], by decide +kernel, tab, List.cons_ne_nil _ _,
      ⟨blank, List.cons_ne_nil _ _, rfl, by simp [span, clause], path, rfl⟩, Or.inr rfl⟩
  have formed' : quoted.WellFormed :=
    ⟨blank, List.cons_ne_nil _ _, by simp [quoted], by decide +kernel, blank, List.cons_ne_nil _ _,
      ⟨blank, List.cons_ne_nil _ _, rfl, List.cons_ne_nil _ _, List.forall_mem_singleton.mpr rfl, rfl⟩, Or.inl rfl⟩
  have first : (⟨span.chars, 1⟩ : ImportLine) ∈ imports source.lines := by simp [statements]
  obtain ⟨clean, exact⟩ := named_imports_exact source .builtin {} on _ first
  obtain ⟨-, -, path⟩ := exact span formed rfl
  exact ⟨on, statements, by decide +kernel, formed, path names, clean.mpr ⟨span, formed, rfl⟩, formed',
    by decide +kernel⟩

end SolidityLint

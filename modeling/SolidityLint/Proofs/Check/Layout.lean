import SolidityLint.Proofs.Check.Places
import SolidityLint.Proofs.Declaration.Pieces

/-! What is found about single lines. A line is looked at by itself: its length, its tabs, and its last character,
    since a run of white space leads to the end of a line just if the last character is white space. So the findings of
    a text are those of its lines one after another, and a text that is cut at a newline has the findings of both
    parts. -/

namespace SolidityLint

open Text Declaration

/-! ### White space at the end -/

namespace Check

theorem blankToEnd_iff {cs : List Char} : blankToEnd cs = true ↔ Blanks cs := by
  induction cs with
  | nil => simp [blankToEnd, Blanks]
  | cons c rest ih =>
    simp only [blankToEnd, Bool.or_eq_true, Bool.and_eq_true, decide_eq_true_eq, ih]
    constructor
    · rintro (newline | ⟨blank, blanks⟩)
      · rw [newline]
        exact List.forall_mem_singleton.mpr (by decide)
      · exact List.forall_mem_cons.mpr ⟨blank, blanks⟩
    · intro blanks
      exact Or.inr (List.forall_mem_cons.mp blanks)

/-- White space leads to the end of a text just if the last character is white space, so it does not matter where the
    run begins. -/
theorem endsBlank_iff {cs : List Char} : endsBlank cs = true ↔ cs.getLast?.any isBlank = true := by
  rw [Option.any_eq_true]
  induction cs with
  | nil => simp [endsBlank]
  | cons c rest ih =>
    simp only [endsBlank, Bool.or_eq_true, Bool.and_eq_true, blankToEnd_iff, ih]
    cases rest with
    | nil => simp [Blanks]
    | cons d more =>
      rw [List.getLast?_cons_cons, List.getLast?_eq_some_getLast (List.cons_ne_nil d more)]
      constructor
      · rintro (⟨-, blanks⟩ | last)
        · exact ⟨_, rfl, blanks _ (List.getLast_mem _)⟩
        · exact last
      · exact Or.inr

end Check

/-! ### The findings about a line -/

namespace RuleConfiguration

/-- The limit on the length of lines, if there is one. -/
def lineLimit? (rules : RuleConfiguration) : Option LineLimit :=
  rules.layout.bind (·.maxLineLength)

/-- The configuration with another limit on the length of lines, if lines are looked at. -/
def withLineLimit (rules : RuleConfiguration) (limit : LineLimit) : RuleConfiguration :=
  { rules with layout := rules.layout.map fun layout => { layout with maxLineLength := some limit } }

end RuleConfiguration

section

variable (path : RawText) (rules : RuleConfiguration) (severities : SeverityMap)

/-- The finding about a line that is longer than the limit. -/
def overlong (line : List Char) (number : Nat) : List Finding :=
  match rules.lineLimit? with
  | some limit =>
    if limit.width < line.length then
      [{ path, line := number, rule := "layout.maxLineLength", code := "MaxLineLength",
         message := "Line length " ++ toString line.length ++ " exceeds maximum " ++ toString limit.width,
         severity := severities.resolve "layout.maxLineLength" }]
    else []
  | none => []

/-- The findings about a line: its length, then its tabs, then the white space at its end. -/
def lineFindings (line : List Char) (number : Nat) : List Finding :=
  overlong path rules severities line number ++
  (if rules.enables .noTabs ∧ '\t' ∈ line then
    [{ path, line := number, rule := "layout.noTabs", code := "NoTabs",
       message := "Use spaces instead of tabs for indentation", severity := severities.resolve "layout.noTabs" }]
  else []) ++
  if rules.enables .noTrailingWhitespace ∧ line.getLast?.any isBlank then
    [{ path, line := number, rule := "layout.noTrailingWhitespace", code := "TrailingWhitespace",
       message := "Remove trailing whitespace", severity := severities.resolve "layout.noTrailingWhitespace" }]
  else []

variable {path rules severities}

theorem map_maxLineLength {layout : LayoutRules} (h : rules.layout = some layout) (line : List Char) (number : Nat) :
    (Check.maxLineLength layout number line).map (·.toFinding severities path) =
      overlong path rules severities line number := by
  have limit : rules.lineLimit? = layout.maxLineLength := by simp [RuleConfiguration.lineLimit?, h]
  rw [overlong, limit, Check.maxLineLength]
  cases layout.maxLineLength with
  | none => rfl
  | some limit =>
    dsimp only
    split <;> rfl

theorem map_line {layout : LayoutRules} (h : rules.layout = some layout) (line : List Char) (number : Nat) :
    (Check.line layout number line).map (·.toFinding severities path) =
      lineFindings path rules severities line number := by
  have settings : rules.settings? .layout = some layout.setting := by simp [RuleConfiguration.settings?, h]
  have tabs : rules.enables .noTabs = layout.noTabs := by
    rw [RuleConfiguration.enables_of_settings? settings rfl, LayoutRules.setting, Setting.isOn_ofSwitch]
  have trailing : rules.enables .noTrailingWhitespace = layout.noTrailingWhitespace := by
    rw [RuleConfiguration.enables_of_settings? settings rfl, LayoutRules.setting, Setting.isOn_ofSwitch]
  rw [Check.line, List.map_append, List.map_append, lineFindings, map_maxLineLength h, tabs, trailing]
  congr 1
  · simp only [Check.noTabs, List.contains_eq_mem, Bool.and_eq_true, decide_eq_true_eq]
    split <;> rfl
  · simp only [Check.noTrailingWhitespace, Bool.and_eq_true, Check.endsBlank_iff]
    split <;> rfl

theorem lineFindings_of_off (h : rules.layout = none) (line : List Char) (number : Nat) :
    lineFindings path rules severities line number = [] := by
  have off : rules.settings? .layout = none := by simp [RuleConfiguration.settings?, h]
  have tabs : rules.enables .noTabs = false := RuleConfiguration.enables_of_settings?_eq_none off rfl
  have trailing : rules.enables .noTrailingWhitespace = false := RuleConfiguration.enables_of_settings?_eq_none off rfl
  simp [lineFindings, overlong, RuleConfiguration.lineLimit?, h, tabs, trailing]

/-- The findings of a file are those of its lines, one after another. -/
theorem findingsOf_layout (source : Source) :
    source.findingsOf rules severities .layout =
      (source.lines.zipIdx 1).flatMap fun numbered =>
        lineFindings source.path rules severities numbered.1 numbered.2 := by
  rw [source.findingsOf_eq, Category.violations]
  cases h : rules.layout with
  | none => simp [lineFindings_of_off h]
  | some layout =>
    rw [Option.map_some, Option.getD_some, Check.layout, List.map_flatMap]
    exact List.flatMap_congr fun numbered _ => map_line h numbered.1 numbered.2

/-! ### Lines further down, and longer lines -/

theorem overlong_add (line : List Char) (number count : Nat) :
    overlong path rules severities line (number + count) =
      (overlong path rules severities line number).map fun finding =>
        { finding with line := finding.line + count } := by
  unfold overlong
  split
  · split <;> simp
  · rfl

/-- A line further down has the same findings, further down. -/
theorem lineFindings_add (line : List Char) (number count : Nat) :
    lineFindings path rules severities line (number + count) =
      (lineFindings path rules severities line number).map fun finding =>
        { finding with line := finding.line + count } := by
  rw [lineFindings, lineFindings, overlong_add, List.map_append, List.map_append]
  congr 1
  · congr 1
    split <;> simp
  · split <;> simp

theorem code_of_mem_overlong {line : List Char} {number : Nat} :
    ∀ finding ∈ overlong path rules severities line number, finding.code = "MaxLineLength" := by
  unfold overlong
  grind

theorem filter_lineFindings (line : List Char) (number : Nat) :
    (lineFindings path rules severities line number).filter (·.code = "MaxLineLength") =
      overlong path rules severities line number := by
  have own : (overlong path rules severities line number).filter (·.code = "MaxLineLength") =
      overlong path rules severities line number := by
    rw [List.filter_eq_self]
    intro finding hf
    simpa using code_of_mem_overlong finding hf
  rw [lineFindings, List.filter_append, List.filter_append, own, List.append_assoc]
  refine (congrArg _ ?_).trans (List.append_nil _)
  split <;> split <;> rfl

theorem map_line_overlong (line : List Char) (number : Nat) :
    (overlong path rules severities line number).map (·.line) =
      if ∃ limit ∈ rules.lineLimit?, limit.width < line.length then [(number : Int)] else [] := by
  unfold overlong
  cases rules.lineLimit? with
  | none => simp
  | some limit =>
    simp only [Option.mem_some_iff, exists_eq_left']
    split <;> rfl

theorem filter_findingsOf_layout (source : Source) :
    (source.findingsOf rules severities .layout).filter (·.code = "MaxLineLength") =
      (source.lines.zipIdx 1).flatMap fun numbered =>
        overlong source.path rules severities numbered.1 numbered.2 := by
  rw [findingsOf_layout, List.filter_flatMap]
  exact List.flatMap_congr fun numbered _ => filter_lineFindings numbered.1 numbered.2

theorem lineLimit?_withLineLimit (limit : LineLimit) :
    (rules.withLineLimit limit).lineLimit? = rules.layout.map fun _ => limit := by
  cases h : rules.layout <;> simp [RuleConfiguration.lineLimit?, RuleConfiguration.withLineLimit, h]

/-- A line that is too long for a limit is too long for a lower one. -/
theorem map_line_overlong_sublist {low high : LineLimit} (h : low.width ≤ high.width) (line : List Char)
    (number : Nat) :
    ((overlong path (rules.withLineLimit high) severities line number).map (·.line)).Sublist
      ((overlong path (rules.withLineLimit low) severities line number).map (·.line)) := by
  rw [map_line_overlong, map_line_overlong, lineLimit?_withLineLimit, lineLimit?_withLineLimit]
  cases rules.layout with
  | none => simp
  | some layout =>
    by_cases long : high.width < line.length
    · simp [long, Nat.lt_of_le_of_lt h long]
    · simp [long]

end

/-- The findings about layout are those of each line in turn (`lineFindings`). A text that is cut at a newline has the
    findings of what is in front of it and then those of what is behind it, on lines that come after those in front.
    With a higher limit no line is too long that is not too long with a lower one. -/
theorem layout_exact (rules : RuleConfiguration) (severities : SeverityMap) :
    (∀ source : Source, source.findingsOf rules severities .layout =
      (source.lines.zipIdx 1).flatMap fun numbered =>
        lineFindings source.path rules severities numbered.1 numbered.2) ∧
    (∀ (path : RawText) (one two : String),
      Source.findingsOf ⟨path, one ++ "\n" ++ two⟩ rules severities .layout =
        Source.findingsOf ⟨path, one⟩ rules severities .layout ++
          (Source.findingsOf ⟨path, two⟩ rules severities .layout).map fun finding =>
            { finding with line := finding.line + (Source.lines ⟨path, one⟩).length }) ∧
    ∀ (source : Source) (low high : LineLimit), low.width ≤ high.width →
      let tooLong (limit : LineLimit) : List Int :=
        ((source.findingsOf (rules.withLineLimit limit) severities .layout).filter (·.code = "MaxLineLength")).map
          (·.line)
      (tooLong high).Sublist (tooLong low) := by
  refine ⟨fun source => findingsOf_layout source, fun path one two => ?_, fun source low high h => ?_⟩
  · have cut : Source.lines ⟨path, one ++ "\n" ++ two⟩ = Source.lines ⟨path, one⟩ ++ Source.lines ⟨path, two⟩ := by
      simp only [Source.lines, String.toList_append, List.append_assoc]
      exact splitOn_append '\n' one.toList two.toList
    rw [findingsOf_layout, findingsOf_layout, findingsOf_layout, cut, numbered_append, List.flatMap_append,
      List.flatMap_map, List.map_flatMap]
    congr 1
    exact List.flatMap_congr fun numbered _ => lineFindings_add numbered.1 numbered.2 _
  · intro tooLong
    simp only [tooLong, filter_findingsOf_layout, List.map_flatMap]
    exact List.Sublist.flatMap_right _ fun numbered _ => map_line_overlong_sublist h numbered.1 numbered.2

/-- A line of five characters is longer than four, a carriage return ends a line in white space, and an empty line has
    no last character. -/
theorem layout_exact_two_limits :
    let source : Source := ⟨"a.sol", "ab\tc \nab\r\n\nabcd"⟩
    let low : LineLimit := ⟨2, by decide⟩
    let high : LineLimit := ⟨4, by decide⟩
    let found (limit : LineLimit) := source.findingsOf (RuleConfiguration.builtin.withLineLimit limit) {} .layout
    let tooLong (limit : LineLimit) : List Int := ((found limit).filter (·.code = "MaxLineLength")).map (·.line)
    low.width ≤ high.width ∧
    (found high).map (fun finding => (finding.line, finding.code)) =
      [(1, "MaxLineLength"), (1, "NoTabs"), (1, "TrailingWhitespace"), (2, "TrailingWhitespace")] ∧
    tooLong low = [1, 2, 4] ∧ (tooLong high).Sublist (tooLong low) := by
  intro source low high found tooLong
  have lower : low.width ≤ high.width := by decide
  exact ⟨lower, by decide +kernel, by decide +kernel, (layout_exact .builtin {}).2.2 source low high lower⟩

end SolidityLint

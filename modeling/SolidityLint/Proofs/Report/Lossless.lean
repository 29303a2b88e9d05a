import SolidityLint.Proofs.Check.Accumulation
import SolidityLint.Proofs.Groups
import SolidityLint.Proofs.Report.Lines

/-! The report loses nothing. Its text gives back its lines, and the lines give back the groups of findings and the
    counts. What is read from line to line is never in doubt: an empty line ends the findings of a file, and the line
    behind it ends in a colon if another file follows and is `Summary` if not. -/

namespace SolidityLint

namespace Report

open RawText (ofString)

/-! ### Lines about files -/

/-- What holds of the groups of findings of a check. -/
def Made (groups : List (RawText × List Finding)) : Prop :=
  ∀ group ∈ groups, ∀ finding ∈ group.2, finding.MadeIn group.1

/-- The findings of a file end at the first empty line. -/
theorem findings_cut {path : RawText} {findings findings' : List Finding} {rest rest' : List RawText}
    (hf : ∀ finding ∈ findings, finding.MadeIn path) (hf' : ∀ finding ∈ findings', finding.MadeIn path)
    (h : (findings.flatMap findingLines).map ofString ++ ofString "" :: rest =
      (findings'.flatMap findingLines).map ofString ++ ofString "" :: rest') :
    findings = findings' ∧ rest = rest' := by
  have starts (finding : Finding) (more more' : List RawText) :
      (findingLines finding).map ofString ++ more ≠ ofString "" :: more' := fun e =>
    ne_empty_of_mem_findingLines List.mem_cons_self (RawText.ofString_injective (List.cons.inj e).1)
  induction findings generalizing findings' with
  | nil =>
    cases findings' with
    | nil => exact ⟨rfl, (List.cons.inj h).2⟩
    | cons finding' more' =>
      rw [List.flatMap_cons, List.map_append, List.append_assoc] at h
      exact absurd h.symm (starts finding' _ _)
  | cons finding more ih =>
    cases findings' with
    | nil =>
      rw [List.flatMap_cons, List.map_append, List.append_assoc] at h
      exact absurd h (starts finding _ _)
    | cons finding' more' =>
      rw [List.flatMap_cons, List.flatMap_cons, List.map_append, List.map_append, List.append_assoc,
        List.append_assoc] at h
      obtain ⟨first, h⟩ := List.append_inj h (by rw [List.length_map, List.length_map, length_findingLines,
        length_findingLines])
      have same : finding = finding' := findingLines_injective (hf finding List.mem_cons_self)
        (hf' finding' List.mem_cons_self) (RawText.map_ofString_injective first)
      obtain ⟨rfl, rest⟩ := ih (fun f hm => hf f (List.mem_cons_of_mem _ hm))
        (fun f hm => hf' f (List.mem_cons_of_mem _ hm)) h
      exact ⟨by rw [same], rest⟩

/-- Behind the findings of a file there is an empty line, whether another file follows or not. -/
theorem exists_groups_eq_empty_cons (groups : List (RawText × List Finding)) (rest : List RawText) :
    ∃ more, groups.flatMap groupLines ++ ofString "" :: rest = ofString "" :: more := by
  cases groups with
  | nil => exact ⟨rest, rfl⟩
  | cons group others =>
    rw [List.flatMap_cons, groupLines]
    exact ⟨_, rfl⟩

/-- No line above the findings of a file looks like that above the counts. -/
theorem header_ne_summary (path : RawText) : path ++ ofString ":" ≠ ofString "Summary" := by
  intro h
  have last := congrArg (fun s : RawText => s.points.getLast?) h
  simp [ofString, RawText.ofChars] at last

/-- The findings of all files end at the summary. -/
theorem groups_cut {groups groups' : List (RawText × List Finding)} {rest rest' : List RawText}
    (hg : Made groups) (hg' : Made groups')
    (h : groups.flatMap groupLines ++ ofString "" :: ofString "Summary" :: rest =
      groups'.flatMap groupLines ++ ofString "" :: ofString "Summary" :: rest') :
    groups = groups' ∧ rest = rest' := by
  induction groups generalizing groups' with
  | nil =>
    cases groups' with
    | nil => exact ⟨rfl, (List.cons.inj (List.cons.inj h).2).2⟩
    | cons group' others' =>
      rw [List.flatMap_cons, groupLines] at h
      exact absurd (List.cons.inj (List.cons.inj h).2).1.symm (header_ne_summary group'.1)
  | cons group others ih =>
    cases groups' with
    | nil =>
      rw [List.flatMap_cons, groupLines] at h
      exact absurd (List.cons.inj (List.cons.inj h).2).1 (header_ne_summary group.1)
    | cons group' others' =>
      obtain ⟨path, findings⟩ := group
      obtain ⟨path', findings'⟩ := group'
      simp only [List.flatMap_cons, groupLines, List.append_assoc, List.cons_append] at h
      obtain ⟨header, behind⟩ := List.cons.inj (List.cons.inj h).2
      obtain rfl := RawText.append_right_cancel header
      obtain ⟨more, hm⟩ := exists_groups_eq_empty_cons others (ofString "Summary" :: rest)
      obtain ⟨more', hm'⟩ := exists_groups_eq_empty_cons others' (ofString "Summary" :: rest')
      rw [hm, hm'] at behind
      obtain ⟨rfl, same⟩ := findings_cut (hg (path, findings) List.mem_cons_self)
        (hg' (path, findings') List.mem_cons_self) behind
      rw [← same, ← hm] at hm'
      obtain ⟨rfl, tail⟩ := ih (fun g hm => hg g (List.mem_cons_of_mem _ hm))
        (fun g hm => hg' g (List.mem_cons_of_mem _ hm)) hm'.symm
      exact ⟨rfl, tail⟩

/-- The third line tells whether there are findings. -/
theorem bodyLines_cut {groups groups' : List (RawText × List Finding)} {rest rest' : List RawText}
    (hg : Made groups) (hg' : Made groups')
    (h : bodyLines groups ++ ofString "" :: ofString "Summary" :: rest =
      bodyLines groups' ++ ofString "" :: ofString "Summary" :: rest') : groups = groups' ∧ rest = rest' := by
  have passed_ne (group : RawText × List Finding) (others : List (RawText × List Finding))
      (more more' : List RawText) : bodyLines [] ++ more ≠ bodyLines (group :: others) ++ more' := by
    intro e
    have first : "All style checks passed!" = "" := RawText.ofString_injective (List.cons.inj e).1
    exact absurd first (by decide)
  cases groups with
  | nil =>
    cases groups' with
    | nil => exact ⟨rfl, (List.cons.inj (List.cons.inj (List.cons.inj h).2).2).2⟩
    | cons group' others' => exact absurd h (passed_ne group' others' _ _)
  | cons group others =>
    cases groups' with
    | nil => exact absurd h.symm (passed_ne group others _ _)
    | cons group' others' => exact groups_cut hg hg' h

/-! ### Counts -/

/-- The lines behind the findings. -/
def tailLines (result : CheckResult) : List String :=
  tableLines result.summary ++ verdictLines result

theorem lines_eq (result : CheckResult) :
    lines result = ofString "Style Check Results" :: ofString (String.ofList (List.replicate 40 '=')) ::
      (bodyLines result.groups ++ ofString "" :: ofString "Summary" :: (tailLines result).map ofString) := by
  simp [lines, tailLines]

/-- The table tells the counts of findings, and the verdict that of files. -/
theorem summary_eq_of_tailLines {result result' : CheckResult} (h : tailLines result = tailLines result') :
    result.summary = result'.summary := by
  simp only [tailLines, tableLines, verdictLines, Summary.rows, Severity.all, Summary.count, List.map_cons,
    List.map_nil, List.cons_append, List.nil_append, List.cons.injEq, true_and] at h
  obtain ⟨error, warning, info, files, -⟩ := h
  have error := row_toString_injective error
  have warning := row_toString_injective warning
  have info := row_toString_injective info
  have files := toString_injective ((String.append_right_inj _).mp files)
  simp only [CheckResult.summary, Summary.ofFindings, Summary.mk.injEq] at error warning info ⊢
  exact ⟨files, error, warning, info⟩

theorem tailLines_onOneLine (result : CheckResult) : ∀ line ∈ tailLines result, '\n' ∉ line.toList := by
  have digits := Text.notMem_toDigits (c := '\n') (by decide)
  have number (n : Nat) : '\n' ∉ (toString n).toList := by
    simpa using digits n
  have table : ∀ line ∈ tableLines result.summary, '\n' ∉ line.toList := by
    simp only [tableLines, Summary.rows, List.map_map, List.forall_mem_append, List.forall_mem_cons,
      List.forall_mem_map, List.not_mem_nil]
    refine ⟨⟨⟨by decide, by decide, nofun⟩, fun s _ => ?_⟩, by decide, nofun⟩
    exact row_onOneLine s.newline_notMem_word (number _)
  have verdict : ∀ line ∈ verdictLines result, '\n' ∉ line.toList := by
    unfold verdictLines
    cases result.passed <;> simp [digits]
  exact List.forall_mem_append.mpr ⟨table, verdict⟩

/-! ### All lines -/

theorem bodyLines_onOneLine {groups : List (RawText × List Finding)} (hg : Made groups)
    (paths : ∀ group ∈ groups, group.1.OnOneLine) : ∀ line ∈ bodyLines groups, line.OnOneLine := by
  unfold bodyLines
  split
  · intro line hl
    obtain rfl := List.mem_singleton.mp hl
    simp
  · intro line hl
    obtain ⟨group, hm, hl⟩ := List.mem_flatMap.mp hl
    rcases List.mem_cons.mp hl with rfl | hl
    · simp
    rcases List.mem_cons.mp hl with rfl | hl
    · simp [paths group hm]
    · obtain ⟨text, ht, rfl⟩ := List.mem_map.mp hl
      obtain ⟨finding, hf, ht⟩ := List.mem_flatMap.mp ht
      exact RawText.onOneLine_ofString.mpr (findingLines_onOneLine (hg group hm finding hf) text ht)

theorem lines_onOneLine {result : CheckResult} (hg : Made result.groups)
    (paths : ∀ group ∈ result.groups, group.1.OnOneLine) : ∀ line ∈ lines result, line.OnOneLine := by
  rw [lines_eq]
  simp only [List.forall_mem_cons, List.forall_mem_append, List.forall_mem_map, RawText.onOneLine_ofString]
  exact ⟨by decide, by decide, bodyLines_onOneLine hg paths, by decide, by decide, tailLines_onOneLine result⟩

/-- Equal lines come from equal groups and equal counts. -/
theorem groups_eq_and_summary_eq_of_lines {result result' : CheckResult} (hg : Made result.groups)
    (hg' : Made result'.groups) (h : lines result = lines result') :
    result.groups = result'.groups ∧ result.summary = result'.summary := by
  rw [lines_eq, lines_eq] at h
  obtain ⟨groups, tail⟩ := bodyLines_cut hg hg' (List.cons.inj (List.cons.inj h).2).2
  exact ⟨groups, summary_eq_of_tailLines (RawText.map_ofString_injective tail)⟩

end Report

/-! ### Results of a check -/

theorem Source.findings_madeIn (source : Source) (rules : RuleConfiguration) (severities : SeverityMap) :
    ∀ finding ∈ source.findings rules severities, finding.MadeIn source.path := by
  intro finding hf
  rw [Source.findings_eq_map] at hf
  obtain ⟨violation, hv, rfl⟩ := List.mem_map.mp hf
  obtain ⟨category, -, hv⟩ := List.mem_flatMap.mp hv
  exact ⟨violation, severities, category.violations_onOneLine rules _ violation hv, rfl⟩

/-- The groups of a check are those of files, and their findings are made in that file. -/
theorem groups_checkSources (sources : List Source) (rules : RuleConfiguration) (severities : SeverityMap) :
    ∀ group ∈ (checkSources sources rules severities).groups, (∃ source ∈ sources, source.path = group.1) ∧
      ∀ finding ∈ group.2, finding.MadeIn group.1 := by
  rintro ⟨path, findings⟩ hg
  obtain ⟨nonempty, own⟩ := (CheckResult.mem_groups_iff _ path findings).mp hg
  have made : ∀ finding ∈ findings, ∃ source ∈ sources, source.path = path ∧ finding.MadeIn path := by
    intro finding hf
    rw [own, findings_checkSources] at hf
    obtain ⟨hf, same⟩ := List.mem_filter.mp hf
    obtain ⟨source, hs, hf⟩ := List.mem_flatMap.mp hf
    have here := source.findings_madeIn rules severities finding hf
    have path : source.path = path := by
      obtain ⟨violation, _, -, rfl⟩ := here
      exact of_decide_eq_true same
    exact ⟨source, hs, path, path ▸ here⟩
  obtain ⟨first, hf⟩ := List.exists_mem_of_ne_nil _ nonempty
  obtain ⟨source, hs, same, -⟩ := made first hf
  exact ⟨⟨source, hs, same⟩, fun finding hf => (made finding hf).elim fun _ h => h.2.2⟩

/-- Two checks, of any files with paths on one line and under any rules and severities, have the same groups of
    findings and the same counts if they have the same report. -/
theorem report_lossless {sources sources' : List Source} {rules rules' : RuleConfiguration}
    {severities severities' : SeverityMap} (paths : ∀ source ∈ sources, source.path.OnOneLine)
    (paths' : ∀ source ∈ sources', source.path.OnOneLine)
    (h : (checkSources sources rules severities).report = (checkSources sources' rules' severities').report) :
    (checkSources sources rules severities).groups = (checkSources sources' rules' severities').groups ∧
      (checkSources sources rules severities).summary = (checkSources sources' rules' severities').summary := by
  have groups := groups_checkSources sources rules severities
  have groups' := groups_checkSources sources' rules' severities'
  have made : Report.Made (checkSources sources rules severities).groups := fun group hg => (groups group hg).2
  have made' : Report.Made (checkSources sources' rules' severities').groups := fun group hg => (groups' group hg).2
  refine Report.groups_eq_and_summary_eq_of_lines made made' (RawText.joined_newline_injective ?_ ?_ ?_ ?_ h)
  · rw [Report.lines_eq]
    exact List.cons_ne_nil _ _
  · rw [Report.lines_eq]
    exact List.cons_ne_nil _ _
  · refine Report.lines_onOneLine made fun group hg => ?_
    obtain ⟨source, hs, same⟩ := (groups group hg).1
    exact same ▸ paths source hs
  · refine Report.lines_onOneLine made' fun group hg => ?_
    obtain ⟨source, hs, same⟩ := (groups' group hg).1
    exact same ▸ paths' source hs

/-- Two files that differ, under rules that differ, where a tab is all that is found. -/
theorem report_lossless_tab :
    let sources : List Source := [⟨"Summary", "contract a\t"⟩]
    let sources' : List Source := [⟨"Summary", "\tcontract A"⟩]
    let rules : RuleConfiguration := { layout := some { noTabs := true } }
    let rules' : RuleConfiguration := { layout := some { noTabs := true }, naming := some { contracts := true } }
    (∀ source ∈ sources, source.path.OnOneLine) ∧ (∀ source ∈ sources', source.path.OnOneLine) ∧
      (checkSources sources rules {}).report = (checkSources sources' rules' {}).report ∧
      (checkSources sources rules {}).groups = (checkSources sources' rules' {}).groups ∧
      (checkSources sources rules {}).summary = (checkSources sources' rules' {}).summary := by
  intro sources sources' rules rules'
  have paths : ∀ source ∈ sources, source.path.OnOneLine := by simp [sources]
  have paths' : ∀ source ∈ sources', source.path.OnOneLine := by simp [sources']
  have same : checkSources sources rules {} = checkSources sources' rules' {} := by decide +kernel
  have report := congrArg CheckResult.report same
  exact ⟨paths, paths', report, report_lossless paths paths' report⟩

end SolidityLint

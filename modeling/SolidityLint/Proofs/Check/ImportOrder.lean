import Mathlib.Data.Char
import Mathlib.Data.List.Chain
import Mathlib.Data.List.Infix
import Mathlib.Data.List.Lex
import SolidityLint.Proofs.Check.Imports

/-! The order of imports. Paths are compared between neighbours only. Within a block of statements that all have a path
    this is enough, since the order of paths is transitive, and a statement without a path parts two blocks. Only the
    line of a finding depends on where its statement stands, so other lines that come or go move findings and change
    nothing else. -/

namespace SolidityLint

open Text Declaration

/-! ### Blocks of statements with a path -/

namespace Declaration

/-- Of two statements that have a path the first has not the greater one. -/
def InOrder (one two : ImportLine) : Prop :=
  ∀ before ∈ one.path?, ∀ own ∈ two.path?, before ≤ own

/-- Statements that follow each other and have a path, while those around them have none. -/
structure PathBlock (before block after : List ImportLine) : Prop where
  paths : ∀ statement ∈ block, statement.path?.isSome = true
  starts : ∀ statement ∈ before.getLast?, statement.path? = none
  ends : ∀ statement ∈ after.head?, statement.path? = none

theorem InOrder.trans {one two three : ImportLine} (h : InOrder one two) (h' : InOrder two three)
    (path : two.path?.isSome = true) : InOrder one three := by
  obtain ⟨between, hb⟩ := Option.isSome_iff_exists.mp path
  intro before there own here
  exact (h before there between hb).trans (h' between hb own here)

/-- Where all statements have a path, those in order with their neighbours are in order with each other. -/
theorem pairwise_of_isChain {block : List ImportLine} (paths : ∀ statement ∈ block, statement.path?.isSome = true)
    (chain : block.IsChain InOrder) : block.Pairwise InOrder := by
  induction block with
  | nil => exact .nil
  | cons first rest ih =>
    obtain ⟨-, paths⟩ := List.forall_mem_cons.mp paths
    cases rest with
    | nil => exact List.pairwise_singleton _ _
    | cons second rest =>
      obtain ⟨step, chain⟩ := List.isChain_cons_cons.mp chain
      have sorted := ih paths chain
      refine List.pairwise_cons.mpr ⟨List.forall_mem_cons.mpr ⟨step, fun other ho => ?_⟩, sorted⟩
      exact step.trans (List.rel_of_pairwise_cons sorted ho) (paths second List.mem_cons_self)

theorem exists_run (statements : List ImportLine) :
    ∃ run rest, statements = run ++ rest ∧ (∀ statement ∈ run, statement.path?.isSome = true) ∧
      ∀ statement ∈ rest.head?, statement.path? = none := by
  induction statements with
  | nil => exact ⟨[], [], rfl, nofun, nofun⟩
  | cons first rest ih =>
    cases path : first.path? with
    | none => exact ⟨[], first :: rest, rfl, nofun, by simp [path]⟩
    | some _ =>
      obtain ⟨run, rest, rfl, paths, ends⟩ := ih
      exact ⟨first :: run, rest, rfl, List.forall_mem_cons.mpr ⟨by rw [path, Option.isSome_some], paths⟩, ends⟩

/-- Statements with a path lie in a block, which reaches to the next statements without one on both sides. -/
theorem exists_pathBlock (front behind : List ImportLine) {inner : List ImportLine}
    (paths : ∀ statement ∈ inner, statement.path?.isSome = true) :
    ∃ before left right after, front ++ inner ++ behind = before ++ (left ++ inner ++ right) ++ after ∧
      PathBlock before (left ++ inner ++ right) after := by
  obtain ⟨right, after, rfl, onRight, ends⟩ := exists_run behind
  obtain ⟨left, before, reversed, onLeft, starts⟩ := exists_run front.reverse
  obtain rfl : front = before.reverse ++ left.reverse := by
    rw [← List.reverse_append, ← reversed, List.reverse_reverse]
  refine ⟨before.reverse, left.reverse, right, after, by simp only [List.append_assoc], ?_, ?_, ends⟩
  · refine List.forall_mem_append.mpr ⟨List.forall_mem_append.mpr ⟨fun statement hs => ?_, paths⟩, onRight⟩
    exact onLeft statement (List.mem_reverse.mp hs)
  · rwa [List.getLast?_reverse]

/-- Neighbours are in order everywhere just if every block is sorted. -/
theorem isChain_inOrder_iff {statements : List ImportLine} :
    statements.IsChain InOrder ↔ ∀ before block after, statements = before ++ block ++ after →
      PathBlock before block after → block.Pairwise InOrder := by
  constructor
  · rintro chain before block after rfl maximal
    exact pairwise_of_isChain maximal.paths chain.left_of_append.right_of_append
  · intro sorted
    rw [List.isChain_iff_forall_rel_of_append_cons_cons]
    rintro one two front behind rfl path there own here
    -- Two neighbours with a path lie in one block.
    have paths : ∀ statement ∈ [one, two], statement.path?.isSome = true := by
      simp [Option.mem_def.mp there, Option.mem_def.mp here]
    obtain ⟨before, left, right, after, same, maximal⟩ := exists_pathBlock front behind paths
    have block := sorted before (left ++ [one, two] ++ right) after (by simpa using same) maximal
    have pair : [one, two].Pairwise InOrder := block.sublist (List.IsInfix.sublist ⟨left, right, rfl⟩)
    exact List.rel_of_pairwise_cons pair List.mem_cons_self path there own here

end Declaration

/-! ### The findings about neighbours -/

section

variable {source : Source} {rules : RuleConfiguration} {severities : SeverityMap}

theorem filter_eq_nil_iff_isChain (on : rules.enables .alphabetical = true) :
    (source.findingsOf rules severities .imports).filter (·.code = "ImportsNotAlphabetical") = [] ↔
      (imports source.lines).IsChain InOrder := by
  rw [List.eq_nil_iff_forall_not_mem, List.isChain_iff_forall_rel_of_append_cons_cons]
  constructor
  · intro nothing previous current front behind same before there own here
    have neighbours : [previous, current] <:+: imports source.lines := ⟨front, behind, by simp [same]⟩
    by_contra less
    have less : own < before := not_le.mp less
    exact nothing _ (mem_misplaced_iff.mpr ⟨on, previous, current, before, own, neighbours, there, here, less, rfl⟩)
  · intro ordered finding hf
    obtain ⟨-, previous, current, before, own, ⟨front, behind, same⟩, there, here, less, -⟩ := mem_misplaced_iff.mp hf
    have cut : imports source.lines = front ++ previous :: current :: behind := by
      rw [← same, List.append_assoc, List.cons_append, List.singleton_append]
    exact not_lt.mpr (ordered cut before there own here) less

/-- A statement has one finding at most, on its own line. -/
theorem pairwise_line_filter :
    ((source.findingsOf rules severities .imports).filter (·.code = "ImportsNotAlphabetical")).Pairwise
      fun a b => a.line < b.line := by
  have single (settings : ImportRules) (previous : Option ImportLine) (current : ImportLine) :
      (Check.alphabetical settings previous current).Pairwise fun a b => a.line < b.line := by
    unfold Check.alphabetical
    split
    · split
      · exact List.pairwise_singleton _ _
      · exact .nil
    · exact .nil
  have own (settings : ImportRules) (pair : Option ImportLine × ImportLine) :
      ∀ violation ∈ Check.alphabetical settings pair.1 pair.2, violation.line = pair.2.line := by
    intro violation hv
    obtain ⟨-, _, _, -, -, -, rfl⟩ := Check.mem_alphabetical_iff.mp hv
    rfl
  have found := filter_code_findingsOf source rules severities .imports .alphabetical
  rw [show Rule.alphabetical.code = "ImportsNotAlphabetical" from rfl] at found
  rw [found, List.pairwise_map, Category.violations]
  cases rules.imports with
  | none => exact .nil
  | some settings =>
    have sorted := pairwise_lt_line_imports source.lines
    rw [← Check.map_snd_withPrevious (imports source.lines), List.pairwise_map] at sorted
    rw [Option.map_some, Option.getD_some, Check.imports, Check.importList, List.filter_flatMap]
    simp only [Check.filter_alphabetical_neighbours]
    refine List.pairwise_flatMap.mpr ⟨fun pair _ => ?_, sorted.imp fun {a b} less x hx y hy => ?_⟩
    · exact (single settings pair.1 pair.2).imp Int.ofNat_lt.mpr
    · refine Int.ofNat_lt.mpr ?_
      rw [own settings a x hx, own settings b y hy]
      exact less

end

/-! ### Lines in between -/

namespace Check

def renumber (number : Nat → Nat) (violation : Violation) : Violation :=
  { violation with line := number violation.line }

variable (rules : ImportRules) (number : Nat → Nat)

theorem namedOnly_renumber (current : ImportLine) :
    namedOnly rules (current.renumber number) = (namedOnly rules current).map (renumber number) := by
  have text : (current.renumber number).text = current.text := rfl
  unfold namedOnly
  rw [text]
  split <;> rfl

theorem alphabetical_renumber (previous : Option ImportLine) (current : ImportLine) :
    alphabetical rules (previous.map (·.renumber number)) (current.renumber number) =
      (alphabetical rules previous current).map (renumber number) := by
  have path : (current.renumber number).path? = current.path? := rfl
  have before : (previous.map (·.renumber number)).bind ImportLine.path? = previous.bind ImportLine.path? := by
    cases previous <;> rfl
  unfold alphabetical
  rw [path, before]
  split
  · split <;> rfl
  · rfl

theorem withPrevious_map (f : ImportLine → ImportLine) (statements : List ImportLine) :
    withPrevious (statements.map f) = (withPrevious statements).map (Prod.map (Option.map f) f) := by
  have shifted : none :: (statements.map f).map some = (none :: statements.map some).map (Option.map f) := by simp
  rw [withPrevious, shifted, List.zip_map, withPrevious]

/-- Of the line of a statement only the lines of its findings depend. -/
theorem importList_renumber (statements : List ImportLine) :
    importList rules (statements.map (·.renumber number)) = (importList rules statements).map (renumber number) := by
  rw [importList, withPrevious_map, List.flatMap_map, importList, List.map_flatMap]
  refine List.flatMap_congr fun pair _ => ?_
  simp only [neighbours, Prod.map_fst, Prod.map_snd, namedOnly_renumber, alphabetical_renumber, List.map_append]

end Check

namespace Finding

/-- The finding, so many lines further down if it is below a line. -/
def shiftBelow (place : Nat) (count : Int) (finding : Finding) : Finding :=
  if finding.line ≤ place then finding else { finding with line := finding.line + count }

theorem shiftBelow_neg (place count : Nat) (finding : Finding) :
    (finding.shiftBelow place count).shiftBelow place (-count) = finding := by
  by_cases above : finding.line ≤ place
  · simp [shiftBelow, above]
  · have below : ¬finding.line + count ≤ place := by omega
    have back : finding.line + count + -count = finding.line := Int.add_neg_cancel_right _ _
    simp only [shiftBelow, if_neg above, if_neg below, back]

end Finding

theorem toFinding_renumber (severities : SeverityMap) (path : RawText) (place count : Nat) (violation : Violation) :
    (Check.renumber (numberBelow place count) violation).toFinding severities path =
      (violation.toFinding severities path).shiftBelow place count := by
  by_cases above : violation.line ≤ place
  · simp [Check.renumber, numberBelow, Violation.toFinding, Finding.shiftBelow, above]
  · simp [Check.renumber, numberBelow, Violation.toFinding, Finding.shiftBelow, above]

/-- Lines that hold no statement move the findings below them. -/
theorem findingsOf_imports_insert {one two : Source} (rules : RuleConfiguration) (severities : SeverityMap)
    (path : two.path = one.path) {before extra after : List (List Char)} (h : one.lines = before ++ after)
    (h' : two.lines = before ++ extra ++ after) (nothing : imports extra = []) :
    two.findingsOf rules severities .imports =
      (one.findingsOf rules severities .imports).map (·.shiftBelow before.length extra.length) := by
  rw [two.findingsOf_eq, one.findingsOf_eq, Category.violations, Category.violations]
  cases rules.imports with
  | none => rfl
  | some settings =>
    have statements : imports (lines two.text.toList) =
        (imports (lines one.text.toList)).map (·.renumber (numberBelow before.length extra.length)) := by
      rw [show lines two.text.toList = _ from h', show lines one.text.toList = _ from h]
      exact imports_insert nothing before after
    rw [Option.map_some, Option.getD_some, Option.map_some, Option.getD_some, Check.imports, Check.imports, statements,
      Check.importList_renumber, List.map_map, List.map_map, path]
    exact List.map_congr_left fun violation _ => toFinding_renumber severities one.path _ _ violation

/-- An import is found out of order just if it and the import directly in front of it have paths of which its own is
    the smaller one; each is found once, from top to bottom. Nothing is found just if every block of imports with a path
    is sorted as a whole. Lines that are no imports can be put in or taken out anywhere: the findings below them change
    their lines and all else stays. -/
theorem import_order_exact (source : Source) (rules : RuleConfiguration) (severities : SeverityMap) :
    let statements := imports source.lines
    let found := (source.findingsOf rules severities .imports).filter (·.code = "ImportsNotAlphabetical")
    (∀ finding, finding ∈ found ↔ rules.enables .alphabetical = true ∧ ∃ previous current before own,
      [previous, current] <:+: statements ∧ previous.path? = some before ∧ current.path? = some own ∧ own < before ∧
        finding = misplaced source.path severities current.line before own) ∧
    found.Pairwise (fun a b => a.line < b.line) ∧
    (rules.enables .alphabetical = true → (found = [] ↔ ∀ before block after,
      statements = before ++ block ++ after → PathBlock before block after → block.Pairwise InOrder)) ∧
    ∀ (longer : Source) (before extra after : List (List Char)), longer.path = source.path →
      source.lines = before ++ after → longer.lines = before ++ extra ++ after → imports extra = [] →
        longer.findingsOf rules severities .imports =
          (source.findingsOf rules severities .imports).map (·.shiftBelow before.length extra.length) ∧
        source.findingsOf rules severities .imports =
          (longer.findingsOf rules severities .imports).map (·.shiftBelow before.length (-extra.length)) := by
  intro statements found
  refine ⟨fun finding => mem_misplaced_iff, pairwise_line_filter, fun on => ?_, ?_⟩
  · rw [← isChain_inOrder_iff]
    exact filter_eq_nil_iff_isChain on
  · intro longer before extra after path h h' nothing
    have inserted := findingsOf_imports_insert rules severities path h h' nothing
    refine ⟨inserted, ?_⟩
    rw [inserted, List.map_map]
    refine ((List.map_congr_left fun finding _ => ?_).trans (List.map_id _)).symm
    exact finding.shiftBelow_neg before.length extra.length

/-- The second of three imports is out of order, also where two other lines stand in front of it; and an import without
    a path parts two that would be out of order. -/
theorem import_order_exact_parted :
    let text := "import \x7bC\x7d from 'c';\nimport \x7bA\x7d from 'a';\nimport 'x';"
    let source : Source := ⟨"a.sol", text⟩
    let spread := "import \x7bC\x7d from 'c';\n\n// from 'z'\nimport \x7bA\x7d from 'a';\nimport 'x';"
    let longer : Source := ⟨"a.sol", spread⟩
    let parted : Source := ⟨"b.sol", "import \x7bB\x7d from 'b';\nimport 'x';\nimport \x7bA\x7d from 'a';"⟩
    let found (source : Source) := source.findingsOf .builtin {} .imports
    let first : List (List Char) := ["import \x7bC\x7d from 'c';".toList]
    let extra : List (List Char) := [[], "// from 'z'".toList]
    let rest := source.lines.drop 1
    found source = [misplaced "a.sol" {} 2 ['c'] ['a'], unnamed "a.sol" {} 3] ∧
    source.lines = first ++ rest ∧ longer.lines = first ++ extra ++ rest ∧ imports extra = [] ∧
    found longer = (found source).map (·.shiftBelow 1 2) ∧ (found longer).map (·.line) = [4, 5] ∧
    (found parted).filter (·.code = "ImportsNotAlphabetical") = [] ∧
    ∀ before block after, imports parted.lines = before ++ block ++ after → PathBlock before block after →
      block.Pairwise InOrder := by
  intro text source spread longer parted found first extra rest
  have cut : source.lines = first ++ rest := by decide +kernel
  have insertion : longer.lines = first ++ extra ++ rest := by decide +kernel
  have nothing : imports extra = [] := by decide +kernel
  have clean : (found parted).filter (·.code = "ImportsNotAlphabetical") = [] := by decide +kernel
  obtain ⟨-, -, -, between⟩ := import_order_exact source .builtin {}
  obtain ⟨moved, -⟩ := between longer first extra rest rfl cut insertion nothing
  obtain ⟨-, -, blocks, -⟩ := import_order_exact parted .builtin {}
  exact ⟨by decide +kernel, cut, insertion, nothing, moved, by decide +kernel, clean, (blocks (by decide)).mp clean⟩

end SolidityLint

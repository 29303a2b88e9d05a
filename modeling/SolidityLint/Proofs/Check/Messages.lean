import SolidityLint.Check
import SolidityLint.Proofs.Declaration.Pieces
import SolidityLint.Text.Digit

/-! Messages stand on one line. What a message takes from the text of a file is the name of a declaration, which is an
    identifier, or the path of an import, which stands on the line of its statement. -/

namespace SolidityLint

/-! ### Parts of a text -/

namespace Text

theorem afterWord?_subset {α : Type} [DecidableEq α] {word cs rest : List α} (h : afterWord? word cs = some rest) :
    rest ⊆ cs := by
  obtain rfl := Declaration.afterWord?_eq_some_iff.mp h
  exact List.subset_append_right _ _

theorem newline_notMem_of_mem_lines {cs line : List Char} (h : line ∈ lines cs) : '\n' ∉ line :=
  separator_notMem_of_mem_splitOn h

/-- What is found in a text was read at some place of it. -/
theorem exists_read_of_mem_occurrencesFrom {α : Type} {read : Bool → List Char → Option α} {width : α → Nat}
    {line skip : Nat} {atLineStart : Bool} {cs : List Char} {found : Nat × α}
    (h : found ∈ occurrencesFrom read width line skip atLineStart cs) :
    ∃ start rest, read start rest = some found.2 := by
  induction cs generalizing line skip atLineStart with
  | nil =>
    rw [occurrencesFrom] at h
    cases h
  | cons c rest ih =>
    cases skip with
    | succ skip =>
      rw [occurrencesFrom] at h
      exact ih h
    | zero =>
      rw [occurrencesFrom] at h
      split at h
      · rename_i item here
        rcases List.mem_cons.mp h with rfl | h
        · exact ⟨_, _, here⟩
        · exact ih h
      · exact ih h

end Text

namespace Declaration

open Text

/-! ### Names of declarations -/

theorem newline_notMem_of_identifier? {cs name rest : List Char} (h : identifier? cs = some (name, rest)) :
    '\n' ∉ name := by
  obtain ⟨-, named, -⟩ := identifier?_eq_some_iff.mp h
  exact fun hm => absurd (named.isIdentifierChar '\n' hm) (by decide)

theorem ContractSpan.exists_identifier? {start : Bool} {cs : List Char} {span : ContractSpan}
    (h : ContractSpan.read? start cs = some span) : ∃ before after, identifier? before = some (span.name, after) := by
  dsimp only [ContractSpan.read?] at h
  obtain ⟨_, -, h⟩ := Option.bind_eq_some_iff.mp h
  obtain ⟨_, -, h⟩ := Option.bind_eq_some_iff.mp h
  obtain ⟨_, -, h⟩ := Option.bind_eq_some_iff.mp h
  obtain ⟨⟨name, after⟩, hn, h⟩ := Option.bind_eq_some_iff.mp h
  obtain rfl := Option.some.inj h
  exact ⟨_, after, hn⟩

theorem FunctionSpan.exists_identifier? {cs : List Char} {span : FunctionSpan}
    (h : FunctionSpan.read? cs = some span) : ∃ before after, identifier? before = some (span.name, after) := by
  dsimp only [FunctionSpan.read?] at h
  obtain ⟨_, -, h⟩ := Option.bind_eq_some_iff.mp h
  obtain ⟨_, -, h⟩ := Option.bind_eq_some_iff.mp h
  obtain ⟨⟨name, after⟩, hn, h⟩ := Option.bind_eq_some_iff.mp h
  obtain ⟨_, -, h⟩ := Option.bind_eq_some_iff.mp h
  obtain ⟨_, -, h⟩ := Option.bind_eq_some_iff.mp h
  obtain ⟨_, -, h⟩ := Option.bind_eq_some_iff.mp h
  obtain rfl := Option.some.inj h
  exact ⟨_, after, hn⟩

theorem EventSpan.exists_identifier? {cs : List Char} {span : EventSpan} (h : EventSpan.read? cs = some span) :
    ∃ before after, identifier? before = some (span.name, after) := by
  dsimp only [EventSpan.read?] at h
  obtain ⟨_, -, h⟩ := Option.bind_eq_some_iff.mp h
  obtain ⟨_, -, h⟩ := Option.bind_eq_some_iff.mp h
  obtain ⟨⟨name, after⟩, hn, h⟩ := Option.bind_eq_some_iff.mp h
  obtain rfl := Option.some.inj h
  exact ⟨_, after, hn⟩

theorem ConstantSpan.exists_identifier? {cs : List Char} {span : ConstantSpan}
    (h : ConstantSpan.read? cs = some span) : ∃ before after, identifier? before = some (span.name, after) := by
  dsimp only [ConstantSpan.read?] at h
  obtain ⟨⟨name, after⟩, hn, h⟩ := Option.bind_eq_some_iff.mp h
  obtain ⟨_, -, h⟩ := Option.bind_eq_some_iff.mp h
  refine ⟨cs, after, ?_⟩
  rcases ite_eq_iff.mp h with ⟨-, h⟩ | ⟨-, h⟩
  · obtain ⟨_, -, h⟩ := Option.bind_eq_some_iff.mp h
    obtain rfl := Option.some.inj h
    exact hn
  · obtain ⟨_, -, h⟩ := Option.bind_eq_some_iff.mp h
    obtain ⟨_, -, h⟩ := Option.bind_eq_some_iff.mp h
    obtain ⟨_, -, h⟩ := Option.bind_eq_some_iff.mp h
    obtain rfl := Option.some.inj h
    exact hn

/-- The name of a declaration of a kind. -/
theorem newline_notMem_of_mem_occurrences {α : Type} {read : Bool → List Char → Option α} {width : α → Nat}
    {name : α → List Char}
    (h : ∀ start cs span, read start cs = some span → ∃ before after, identifier? before = some (name span, after))
    {cs : List Char} {found : Nat × α} (hf : found ∈ occurrences read width cs) : '\n' ∉ name found.2 := by
  obtain ⟨start, rest, hr⟩ := exists_read_of_mem_occurrencesFrom hf
  obtain ⟨_, _, hn⟩ := h start rest found.2 hr
  exact newline_notMem_of_identifier? hn

theorem newline_notMem_of_lastWord? {cs name : List Char} (h : lastWord? cs = some name) : '\n' ∉ name := by
  induction cs with
  | nil => cases h
  | cons c rest ih =>
    rw [lastWord?_cons] at h
    cases hw : (if isBlank c then identifier? rest else none) with
    | none =>
      rw [hw] at h
      exact ih h
    | some word =>
      rw [hw] at h
      dsimp only at h
      split at h
      · obtain rfl := Option.some.inj h
        split at hw
        · exact newline_notMem_of_identifier? hw
        · cases hw
      · exact ih h

theorem newline_notMem_of_mem_argumentNames {arguments name : List Char} (h : name ∈ argumentNames arguments) :
    '\n' ∉ name := by
  obtain ⟨fragment, -, hn⟩ := List.mem_filterMap.mp h
  exact newline_notMem_of_lastWord? (Option.filter_eq_some_iff.mp hn).1

theorem newline_notMem_visibility (tail : List Char) : '\n' ∉ (visibility tail).toList := by
  have found {inWord : Bool} {cs : List Char} {word : String} (h : findVisibility? inWord cs = some word) :
      word ∈ visibilityWords := by
    induction cs generalizing inWord with
    | nil => cases h
    | cons c rest ih =>
      rw [findVisibility?] at h
      split at h
      · rename_i here
        obtain rfl := Option.some.inj h
        split at here
        · cases here
        · exact List.mem_of_find?_eq_some here
      · exact ih h
  have words : ∀ word ∈ visibilityWords, '\n' ∉ word.toList := by decide
  unfold visibility
  cases h : findVisibility? false tail with
  | none => decide
  | some word => exact words word (found h)

/-! ### Paths of imports -/

theorem quotedText?_subset {cs path rest : List Char} (h : quotedText? cs = some (path, rest)) : path ⊆ cs := by
  unfold quotedText? at h
  split at h
  · cases h
  · rename_i c inside
    rw [List.span_eq_takeWhile_dropWhile] at h
    split at h
    · dsimp only at h
      split at h
      · cases h
      · split at h
        · cases h
        · obtain ⟨rfl, -⟩ := Prod.mk.inj (Option.some.inj h)
          exact List.subset_cons_of_subset _ (List.takeWhile_sublist _).subset
    · cases h

theorem fromClause?_subset {cs path rest : List Char} (h : fromClause? cs = some (path, rest)) : path ⊆ cs := by
  dsimp only [fromClause?] at h
  obtain ⟨after, ha, h⟩ := Option.bind_eq_some_iff.mp h
  obtain ⟨_, -, hq⟩ := Option.bind_eq_some_iff.mp h
  rw [List.span_eq_takeWhile_dropWhile] at hq
  have inside : path ⊆ after := List.Subset.trans (quotedText?_subset hq) (List.dropWhile_sublist _).subset
  exact List.Subset.trans inside (afterWord?_subset ha)

theorem importPath?_subset {cs path : List Char} (h : importPath? cs = some path) : path ⊆ cs := by
  induction cs with
  | nil => cases h
  | cons c rest ih =>
    rw [importPath?] at h
    split at h
    · rename_i found _ here
      obtain rfl := Option.some.inj h
      exact fromClause?_subset here
    · exact List.subset_cons_of_subset _ (ih h)

theorem newline_notMem_of_mem_imports {cs : List Char} {statement : ImportLine} (h : statement ∈ imports (lines cs)) :
    '\n' ∉ statement.text := by
  obtain ⟨⟨line, number⟩, hm, hs⟩ := List.mem_filterMap.mp h
  have hl : line ∈ lines cs := List.fst_mem_of_mem_zipIdx hm
  simp only [importAt?] at hs
  split at hs
  · obtain rfl := Option.some.inj hs
    exact fun hn => newline_notMem_of_mem_lines hl (trim_subset line hn)
  · cases hs

theorem newline_notMem_path {statement : ImportLine} (h : '\n' ∉ statement.text) {path : List Char}
    (hp : statement.path? = some path) : '\n' ∉ path :=
  fun hm => h (importPath?_subset hp hm)

end Declaration

/-! ### Messages -/

/-- Whether a message stands on one line. -/
def Violation.OnOneLine (violation : Violation) : Prop :=
  '\n' ∉ violation.message.toList

theorem onOneLine_of_mem_ite {c : Prop} [Decidable c] {violation : Violation} (h : violation.OnOneLine) :
    ∀ found ∈ if c then [violation] else [], found.OnOneLine := by
  intro found hf
  split at hf
  · exact List.mem_singleton.mp hf ▸ h
  · cases hf

theorem onOneLine_of_mem_ite_not {c : Prop} [Decidable c] {violation : Violation} (h : violation.OnOneLine) :
    ∀ found ∈ if c then [] else [violation], found.OnOneLine := by
  rw [← ite_not]
  exact onOneLine_of_mem_ite h

namespace Check

open Declaration

theorem licence_onOneLine (rules : HeaderRules) (text : List Char) :
    ∀ violation ∈ licence rules text, violation.OnOneLine := by
  have missing : '\n' ∉ "Missing SPDX license identifier".toList := by decide
  have below : '\n' ∉ "SPDX license should be on first line".toList := by decide
  unfold licence
  split
  · nofun
  · split
    · exact List.forall_mem_singleton.mpr missing
    · exact onOneLine_of_mem_ite below

theorem pragma_onOneLine (rules : HeaderRules) (text : List Char) :
    ∀ violation ∈ pragma rules text, violation.OnOneLine := by
  have order : '\n' ∉ "Pragma should come after SPDX license".toList := by decide
  unfold pragma
  split
  · nofun
  · split
    · exact onOneLine_of_mem_ite order
    · nofun

theorem header_onOneLine (rules : HeaderRules) (text : List Char) :
    ∀ violation ∈ header rules text, violation.OnOneLine :=
  List.forall_mem_append.mpr ⟨licence_onOneLine rules text, pragma_onOneLine rules text⟩

theorem namedOnly_onOneLine (rules : ImportRules) (current : ImportLine) :
    ∀ violation ∈ namedOnly rules current, violation.OnOneLine := by
  have words : '\n' ∉ "Use named imports: import \x7bContract\x7d from \"./file.sol\"".toList := by decide
  exact onOneLine_of_mem_ite words

theorem alphabetical_onOneLine (rules : ImportRules) {previous : Option ImportLine} {current : ImportLine}
    (hp : ∀ statement ∈ previous, '\n' ∉ statement.text) (hc : '\n' ∉ current.text) :
    ∀ violation ∈ alphabetical rules previous current, violation.OnOneLine := by
  unfold alphabetical
  split
  · rename_i path before _ own other
    obtain ⟨statement, hs, other⟩ := Option.bind_eq_some_iff.mp other
    have hPath := newline_notMem_path hc own
    have hBefore := newline_notMem_path (hp statement hs) other
    exact onOneLine_of_mem_ite (by simp [Violation.OnOneLine, hPath, hBefore])
  · nofun

/-- The statements before and at a place of a list. -/
theorem mem_of_mem_withPrevious {statements : List ImportLine} {pair : Option ImportLine × ImportLine}
    (h : pair ∈ withPrevious statements) : (∀ statement ∈ pair.1, statement ∈ statements) ∧ pair.2 ∈ statements := by
  obtain ⟨before, here⟩ := List.of_mem_zip h
  refine ⟨fun statement hs => ?_, here⟩
  rcases List.mem_cons.mp before with hn | hm
  · rw [hn] at hs
    cases hs
  · obtain ⟨other, ho, he⟩ := List.mem_map.mp hm
    rw [← he] at hs
    exact Option.some.inj hs ▸ ho

theorem imports_onOneLine (rules : ImportRules) (text : List Char) :
    ∀ violation ∈ imports rules text, violation.OnOneLine := by
  intro violation hv
  obtain ⟨pair, hp, hv⟩ := List.mem_flatMap.mp hv
  obtain ⟨before, here⟩ := mem_of_mem_withPrevious hp
  rcases List.mem_append.mp hv with hv | hv
  · exact namedOnly_onOneLine rules pair.2 violation hv
  · exact alphabetical_onOneLine rules (fun statement hs => newline_notMem_of_mem_imports (before statement hs))
      (newline_notMem_of_mem_imports here) violation hv

theorem line_onOneLine (rules : LayoutRules) (number : Nat) (chars : List Char) :
    ∀ violation ∈ line rules number chars, violation.OnOneLine := by
  have tabs : '\n' ∉ "Use spaces instead of tabs for indentation".toList := by decide
  have trailing : '\n' ∉ "Remove trailing whitespace".toList := by decide
  have long : ∀ violation ∈ maxLineLength rules number chars, violation.OnOneLine := by
    unfold maxLineLength
    split
    · have digits := Text.notMem_toDigits (c := '\n') (by decide)
      exact onOneLine_of_mem_ite (by simp [Violation.OnOneLine, digits])
    · nofun
  exact List.forall_mem_append.mpr
    ⟨List.forall_mem_append.mpr ⟨long, onOneLine_of_mem_ite tabs⟩, onOneLine_of_mem_ite trailing⟩

theorem layout_onOneLine (rules : LayoutRules) (text : List Char) :
    ∀ violation ∈ layout rules text, violation.OnOneLine := by
  intro violation hv
  obtain ⟨numbered, -, hv⟩ := List.mem_flatMap.mp hv
  exact line_onOneLine rules numbered.2 numbered.1 violation hv

/-! ### Names -/

theorem styleMessage_onOneLine {kind style : String} {name : List Char} (hk : '\n' ∉ kind.toList) (hn : '\n' ∉ name)
    (hs : '\n' ∉ style.toList) : '\n' ∉ (styleMessage kind name style).toList := by
  simp [styleMessage, hk, hn, hs]

theorem newline_notMem_styleName (style : NameStyle) : '\n' ∉ style.name.toList := by
  cases style <;> decide

theorem contract_onOneLine {found : Nat × ContractSpan} (hn : '\n' ∉ found.2.name) :
    ∀ violation ∈ contract found, violation.OnOneLine :=
  onOneLine_of_mem_ite_not (styleMessage_onOneLine (by decide) hn (newline_notMem_styleName _))

theorem function_onOneLine (rules : NamingRules) {found : Nat × FunctionSpan} (hn : '\n' ∉ found.2.name) :
    ∀ violation ∈ function rules found, violation.OnOneLine := by
  refine List.forall_mem_append.mpr ⟨?_, ?_⟩
  · unfold functionName
    dsimp only
    split
    · refine onOneLine_of_mem_ite_not (styleMessage_onOneLine ?_ hn (newline_notMem_styleName _))
      simp [newline_notMem_visibility]
    · exact onOneLine_of_mem_ite (styleMessage_onOneLine (by decide) hn (newline_notMem_styleName _))
  · unfold functionArguments
    split
    · intro violation hv
      obtain ⟨name, hm, rfl⟩ := List.mem_map.mp hv
      have hn := newline_notMem_of_mem_argumentNames (List.mem_filter.mp hm).1
      exact styleMessage_onOneLine (by decide) hn (newline_notMem_styleName _)
    · nofun

theorem event_onOneLine (rules : NamingRules) {found : Nat × EventSpan} (hn : '\n' ∉ found.2.name) :
    ∀ violation ∈ event rules found, violation.OnOneLine :=
  List.forall_mem_append.mpr
    ⟨onOneLine_of_mem_ite_not (styleMessage_onOneLine (by decide) hn (newline_notMem_styleName _)),
      onOneLine_of_mem_ite (by simp [Violation.OnOneLine, hn])⟩

theorem constant_onOneLine {found : Nat × ConstantSpan} (hn : '\n' ∉ found.2.name) :
    ∀ violation ∈ constant found, violation.OnOneLine :=
  onOneLine_of_mem_ite_not (styleMessage_onOneLine (by decide) hn (by decide))

/-- Declarations of a kind, where only names that stand on one line are found. -/
theorem flatMap_onOneLine {α : Type} {violations : α → List Violation} {items : List α}
    (h : ∀ item ∈ items, ∀ violation ∈ violations item, violation.OnOneLine) (c : Bool) :
    ∀ violation ∈ if c then items.flatMap violations else [], violation.OnOneLine := by
  intro violation hv
  split at hv
  · obtain ⟨item, hm, hv⟩ := List.mem_flatMap.mp hv
    exact h item hm violation hv
  · cases hv

theorem naming_onOneLine (rules : NamingRules) (text : List Char) :
    ∀ violation ∈ naming rules text, violation.OnOneLine := by
  have contracts {found} (hf : found ∈ contracts text) : '\n' ∉ found.2.name :=
    newline_notMem_of_mem_occurrences (fun _ _ _ => ContractSpan.exists_identifier?) hf
  have functions {found} (hf : found ∈ functions text) : '\n' ∉ found.2.name :=
    newline_notMem_of_mem_occurrences (fun _ _ _ => FunctionSpan.exists_identifier?) (List.mem_filter.mp hf).1
  have events {found} (hf : found ∈ events text) : '\n' ∉ found.2.name :=
    newline_notMem_of_mem_occurrences (fun _ _ _ => EventSpan.exists_identifier?) hf
  have constants {found} (hf : found ∈ constants text) : '\n' ∉ found.2.name :=
    newline_notMem_of_mem_occurrences (fun _ _ _ => ConstantSpan.exists_identifier?) hf
  refine List.forall_mem_append.mpr ⟨List.forall_mem_append.mpr ⟨List.forall_mem_append.mpr ⟨?_, ?_⟩, ?_⟩, ?_⟩
  · exact flatMap_onOneLine (fun _ hf => contract_onOneLine (contracts hf)) rules.contracts
  · exact flatMap_onOneLine (fun _ hf => function_onOneLine rules (functions hf)) true
  · exact flatMap_onOneLine (fun _ hf => event_onOneLine rules (events hf)) rules.events
  · exact flatMap_onOneLine (fun _ hf => constant_onOneLine (constants hf)) rules.constants

end Check

/-- Every message stands on one line, whatever the text is. -/
theorem Category.violations_onOneLine (category : Category) (rules : RuleConfiguration) (text : List Char) :
    ∀ violation ∈ category.violations rules text, violation.OnOneLine :=
  violations_cases (motive := fun _ violations => ∀ violation ∈ violations, violation.OnOneLine) rules text
    (fun _ => nofun) (fun settings _ => Check.header_onOneLine settings text)
    (fun settings _ => Check.imports_onOneLine settings text) (fun settings _ => Check.naming_onOneLine settings text)
    (fun settings _ => Check.layout_onOneLine settings text) category

end SolidityLint

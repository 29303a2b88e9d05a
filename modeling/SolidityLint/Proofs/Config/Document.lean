import SolidityLint.Config.Loading
import SolidityLint.Proofs.Config.Checks
import SolidityLint.Proofs.Config.Settings
import SolidityLint.Proofs.Config.Severities
import SolidityLint.Proofs.Value.Lookup

/-! Which documents make a configuration, and what is said of the others. The parts of a document are looked at one
    after another, each under a key of its own; the order of the keys does not count. A document is accepted if every
    part is, and otherwise the fault is that of the first part that is not.

    Parts accept what their values are meant to be, except that a number with more digits than can be shown is no name
    of a contract and no key of a severity; it is a fault of its own, also where another fault would have to show it. -/

namespace SolidityLint

namespace CheckerConfig

/-! ### Parts of a document -/

/-- The parts of a document in the order in which they are looked at. The names are those of the contracts, which are
    written out at the end. -/
inductive Part where
  | rules
  | contracts
  | sourceDir
  | severity
  | names

namespace Part

def all : List Part :=
  [.rules, .contracts, .sourceDir, .severity, .names]

def key : Part → String
  | .rules => "rules"
  | .contracts | .names => "contracts"
  | .sourceDir => "source_dir"
  | .severity => "severity"

/-- What a document says of a part; nothing if it does not have the key. -/
def value? (part : Part) (entries : List (Value × Value)) : Option Value :=
  Value.entry? part.key entries

/-- Whether a part can be what a document says. No part has to be there. -/
def Accepts : Part → Option Value → Prop
  | _, none => True
  | .rules, some value => value.isEmpty = true ∨ ∃ rules, RuleConfiguration.ofValue value = .ok rules
  | .contracts, some value => (∃ name, value = .str name) ∨ ∃ name names, value = .list (name :: names)
  | .sourceDir, some value => ∃ directory : RawText, value = .str directory ∧ ∃ c ∈ directory.points, c.isBlank = false
  | .severity, some value =>
    value = .null ∨ ∃ entries, value = .mapping entries ∧ ∀ entry ∈ entries, SeverityMap.Sets entry
  | .names, some value => ∀ names, value = .list names → ∀ name ∈ names, name.isShowable = true

/-- What is wrong with a part that cannot be what a document says. -/
inductive Fault : Part → Value → ConfigError → Prop
  | rules {value : Value} {e : ConfigError} (present : value.isEmpty = false)
    (refused : RuleConfiguration.ofValue value = .error e) : Fault .rules value e
  | contracts {value : Value} (noName : ∀ name, value ≠ .str name)
    (noNames : ∀ name names, value ≠ .list (name :: names)) : Fault .contracts value .contractsInvalid
  | sourceDir {value : Value} (blank : ∀ directory, value = .str directory → ∀ c ∈ directory.points, c.isBlank = true) :
    Fault .sourceDir value .sourceDirInvalid
  | severity {value : Value} {e : ConfigError} (fault : SeverityMap.Fault value e) : Fault .severity value e
  | names {names : List Value} {name : Value} (there : name ∈ names) (long : name.isShowable = false) :
    Fault .names (.list names) .numberTooLong

/-- The check of a part by itself. Names are checked only if there are any. -/
def check (entries : List (Value × Value)) : Part → Except ConfigError Unit
  | .rules => (readRules entries).map fun _ => ()
  | .contracts => (readContracts entries).map fun _ => ()
  | .sourceDir => (readSourceDir entries).map fun _ => ()
  | .severity => (readSeverities entries).map fun _ => ()
  | .names => match readContracts entries with
    | .ok found => (contractNamesOf found).map fun _ => ()
    | .error _ => .ok ()

/-- A part is what a document says, or something is wrong with what it says. -/
theorem accepts_or_fault (part : Part) (said : Option Value) :
    part.Accepts said ∨ ∃ value e, said = some value ∧ part.Fault value e := by
  cases said with
  | none => exact Or.inl (by cases part <;> exact trivial)
  | some value =>
    suffices h : part.Accepts (some value) ∨ ∃ e, part.Fault value e from
      h.imp_right fun ⟨e, fault⟩ => ⟨value, e, rfl, fault⟩
    cases part with
    | rules =>
      cases empty : value.isEmpty with
      | true => exact Or.inl (Or.inl empty)
      | false =>
        cases made : RuleConfiguration.ofValue value with
        | ok rules => exact Or.inl (Or.inr ⟨rules, made⟩)
        | error e => exact Or.inr ⟨e, .rules empty made⟩
    | contracts =>
      match value with
      | .str name => exact Or.inl (Or.inl ⟨name, rfl⟩)
      | .list (name :: others) => exact Or.inl (Or.inr ⟨name, others, rfl⟩)
      | .list [] | .null | .bool _ | .int _ | .float _ _ | .bytes _ | .day _ | .moment _ | .mapping _ | .set _
      | .pair _ _ | .pairAgain | .listAgain | .mappingAgain => exact Or.inr ⟨_, .contracts nofun nofun⟩
    | sourceDir =>
      cases value with
      | str directory =>
        cases blank : directory.isBlank with
        | true =>
          refine Or.inr ⟨_, .sourceDir fun other same => ?_⟩
          obtain rfl := Value.str.inj same
          exact List.all_eq_true.mp blank
        | false =>
          obtain ⟨c, there, visible⟩ := List.all_eq_false.mp blank
          exact Or.inl ⟨directory, rfl, c, there, by simpa using visible⟩
      | _ => exact Or.inr ⟨_, .sourceDir nofun⟩
    | severity =>
      cases made : SeverityMap.ofValue value with
      | ok severities => exact Or.inl (SeverityMap.exists_ofValue_iff.mp ⟨severities, made⟩)
      | error e => exact Or.inr ⟨e, .severity (SeverityMap.ofValue_eq_error_iff.mp made)⟩
    | names =>
      cases value with
      | list found =>
        cases short : Value.areShowable found with
        | true =>
          refine Or.inl fun other same => ?_
          obtain rfl := Value.list.inj same
          exact Value.areShowable_iff.mp short
        | false =>
          obtain ⟨name, there, long⟩ := Value.areShowable_eq_false_iff.mp short
          exact Or.inr ⟨_, .names there long⟩
      | _ => exact Or.inl nofun

end Part

section

variable {entries : List (Value × Value)}

theorem readRules_of_accepts (h : Part.rules.Accepts (Part.rules.value? entries)) :
    ∃ rules, readRules entries = .ok rules := by
  unfold readRules
  change Part.rules.Accepts (Value.entry? "rules" entries) at h
  cases said : Value.entry? "rules" entries with
  | none => exact ⟨_, rfl⟩
  | some value =>
    rw [said] at h
    rcases h with empty | ⟨rules, made⟩
    · exact ⟨_, congrArg RuleConfiguration.ofValue (if_pos empty)⟩
    · dsimp only
      split
      · exact ⟨_, rfl⟩
      · exact ⟨rules, made⟩

theorem readContracts_of_accepts (h : Part.contracts.Accepts (Part.contracts.value? entries)) :
    ∃ found, readContracts entries = .ok found := by
  unfold readContracts
  change Part.contracts.Accepts (Value.entry? "contracts" entries) at h
  cases said : Value.entry? "contracts" entries with
  | none => exact ⟨_, rfl⟩
  | some value =>
    rw [said] at h
    rcases h with ⟨name, rfl⟩ | ⟨name, others, rfl⟩
    · exact ⟨_, rfl⟩
    · exact ⟨_, rfl⟩

theorem readContracts_of_fault {value : Value} {e : ConfigError} (said : Part.contracts.value? entries = some value)
    (fault : Part.contracts.Fault value e) : readContracts entries = .error e := by
  have said : Value.entry? "contracts" entries = some value := said
  cases fault with
  | contracts noName noNames =>
    unfold readContracts
    rw [said]
    split
    · contradiction
    · rename_i name same
      exact absurd (Option.some.inj same) (noName name)
    · rename_i name others same
      exact absurd (Option.some.inj same) (noNames name others)
    · rfl

theorem readSourceDir_of_accepts (h : Part.sourceDir.Accepts (Part.sourceDir.value? entries)) :
    ∃ directory, readSourceDir entries = .ok directory := by
  unfold readSourceDir
  change Part.sourceDir.Accepts (Value.entry? "source_dir" entries) at h
  cases said : Value.entry? "source_dir" entries with
  | none => exact ⟨_, rfl⟩
  | some value =>
    rw [said] at h
    obtain ⟨directory, rfl, c, there, visible⟩ := h
    have blank : directory.isBlank = false := List.all_eq_false.mpr ⟨c, there, by simp [visible]⟩
    exact ⟨directory, if_neg (by simp [blank])⟩

theorem readSourceDir_of_fault {value : Value} {e : ConfigError} (said : Part.sourceDir.value? entries = some value)
    (fault : Part.sourceDir.Fault value e) : readSourceDir entries = .error e := by
  have said : Value.entry? "source_dir" entries = some value := said
  cases fault with
  | sourceDir blank =>
    unfold readSourceDir
    rw [said]
    split
    · contradiction
    · rename_i directory same
      exact if_pos (List.all_eq_true.mpr (blank directory (Option.some.inj same)))
    · rfl

/-- A name that is found is a text, or stands in the list that the document has. -/
theorem mem_of_readContracts {found : List Value} (h : readContracts entries = .ok found) {name : Value}
    (there : name ∈ found) : name.isShowable = true ∨ Part.names.value? entries = some (.list found) := by
  unfold readContracts at h
  split at h
  · obtain rfl := Except.ok.inj h
    obtain rfl := List.mem_singleton.mp there
    exact Or.inl rfl
  · obtain rfl := Except.ok.inj h
    obtain rfl := List.mem_singleton.mp there
    exact Or.inl rfl
  · rename_i said
    obtain rfl := Except.ok.inj h
    exact Or.inr said
  · cases h

theorem check_of_accepts {part : Part} (h : part.Accepts (part.value? entries)) :
    part.check entries = .ok () := by
  cases part with
  | rules =>
    obtain ⟨rules, made⟩ := readRules_of_accepts h
    rw [Part.check, made]
    rfl
  | contracts =>
    obtain ⟨found, made⟩ := readContracts_of_accepts h
    rw [Part.check, made]
    rfl
  | sourceDir =>
    obtain ⟨directory, made⟩ := readSourceDir_of_accepts h
    rw [Part.check, made]
    rfl
  | severity =>
    change Part.severity.Accepts (Value.entry? "severity" entries) at h
    obtain ⟨severities, made⟩ : ∃ severities, readSeverities entries = .ok severities := by
      refine SeverityMap.exists_ofValue_iff.mpr ?_
      cases said : Value.entry? "severity" entries with
      | none => exact Or.inl rfl
      | some value =>
        rw [said] at h
        exact h
    rw [Part.check, made]
    rfl
  | names =>
    rw [Part.check]
    cases made : readContracts entries with
    | error e => rfl
    | ok found =>
      have short : Value.areShowable found = true := by
        refine Value.areShowable_iff.mpr fun name there => ?_
        rcases mem_of_readContracts made there with short | said
        · exact short
        · rw [said] at h
          exact h found rfl name there
      simp [contractNamesOf, short, Except.map]

/-- A fault of a part fails its check. -/
theorem check_of_fault {part : Part} {value : Value} {e : ConfigError} (said : part.value? entries = some value)
    (fault : part.Fault value e) : part.check entries = .error e := by
  cases part with
  | rules =>
    have said : Value.entry? "rules" entries = some value := said
    cases fault with
    | rules present refused =>
      rw [Part.check, readRules, said]
      simp [present, refused, Except.map]
  | contracts =>
    rw [Part.check, readContracts_of_fault said fault]
    rfl
  | sourceDir =>
    rw [Part.check, readSourceDir_of_fault said fault]
    rfl
  | severity =>
    have said : Value.entry? "severity" entries = some value := said
    cases fault with
    | severity fault =>
      rw [Part.check, readSeverities, said, Option.getD_some, SeverityMap.ofValue_eq_error_iff.mpr fault]
      rfl
  | names =>
    have said : Value.entry? "contracts" entries = some value := said
    cases fault with
    | @names found name there long =>
      have made : readContracts entries = .ok found := by
        unfold readContracts
        rw [said]
        cases found with
        | nil => cases there
        | cons first others => rfl
      have unshowable : Value.areShowable found = false := Value.areShowable_eq_false_iff.mpr ⟨name, there, long⟩
      rw [Part.check, made]
      simp [contractNamesOf, unshowable, Except.map]

theorem check_eq_ok_iff {part : Part} : part.check entries = .ok () ↔ part.Accepts (part.value? entries) := by
  refine ⟨fun passed => ?_, check_of_accepts⟩
  rcases part.accepts_or_fault (part.value? entries) with accepts | ⟨value, e, said, fault⟩
  · exact accepts
  · rw [check_of_fault said fault] at passed
    cases passed

theorem check_eq_error_iff {part : Part} {e : ConfigError} :
    part.check entries = .error e ↔ ∃ value, part.value? entries = some value ∧ part.Fault value e := by
  refine ⟨fun refused => ?_, fun ⟨value, said, fault⟩ => check_of_fault said fault⟩
  rcases part.accepts_or_fault (part.value? entries) with accepts | ⟨value, other, said, fault⟩
  · rw [check_of_accepts accepts] at refused
    cases refused
  · rw [check_of_fault said fault] at refused
    exact ⟨value, said, Except.error.inj refused ▸ fault⟩

/-- A document is read part by part. -/
theorem ofEntries_map (entries : List (Value × Value)) :
    (ofEntries entries).map (fun _ => ()) = Part.all.forM fun part => part.check entries := by
  have forM : Part.all.forM (fun part => part.check entries) = (do
      Part.rules.check entries
      Part.contracts.check entries
      Part.sourceDir.check entries
      Part.severity.check entries
      Part.names.check entries
      return ()) := rfl
  rw [forM]
  unfold ofEntries readSettings Part.check
  cases readRules entries with
  | error e => rfl
  | ok rules =>
    cases readContracts entries with
    | error e => rfl
    | ok found =>
      cases readSourceDir entries with
      | error e => rfl
      | ok directory =>
        cases readSeverities entries with
        | error e => rfl
        | ok severities =>
          cases made : contractNamesOf found with
          | error e => simp [made, bind, Except.bind, Except.map, pure, Except.pure]
          | ok names => simp [made, bind, Except.bind, Except.map, pure, Except.pure]

/-- What is told of a document that makes no configuration: the fault of its first part that is not accepted. -/
def FirstFault (entries : List (Value × Value)) (e : ConfigError) : Prop :=
  ∃ before part after value, Part.all = before ++ part :: after ∧
    (∀ earlier ∈ before, earlier.Accepts (earlier.value? entries)) ∧ part.value? entries = some value ∧
    part.Fault value e

theorem ofEntries_eq_error_iff {e : ConfigError} : ofEntries entries = .error e ↔ FirstFault entries e := by
  rw [← map_unit_eq_error_iff, ofEntries_map, forM_eq_error_iff]
  constructor
  · rintro ⟨before, part, after, all, earlier, refused⟩
    obtain ⟨value, said, fault⟩ := check_eq_error_iff.mp refused
    exact ⟨before, part, after, value, all, fun other ho => check_eq_ok_iff.mp (earlier other ho), said, fault⟩
  · rintro ⟨before, part, after, value, all, earlier, said, fault⟩
    exact ⟨before, part, after, all, fun other ho => check_of_accepts (earlier other ho), check_of_fault said fault⟩

theorem exists_ofEntries_iff :
    (∃ config, ofEntries entries = .ok config) ↔ ∀ part : Part, part.Accepts (part.value? entries) := by
  rw [← map_unit_eq_ok_iff, ofEntries_map, forM_eq_ok_iff]
  refine ⟨fun passed part => check_eq_ok_iff.mp (passed part ?_), fun accepts part _ => check_of_accepts (accepts part)⟩
  cases part <;> simp [Part.all]

/-- The order of the keys does not count, as long as no key comes twice. -/
theorem ofEntries_perm {entries' : List (Value × Value)} (h : entries.Perm entries')
    (once : ∀ part : Part, entries.countP (Value.hasKey part.key) ≤ 1) : ofEntries entries' = ofEntries entries := by
  have rules : Value.entry? "rules" entries' = Value.entry? "rules" entries := Value.entry?_perm h (once .rules)
  have contracts : Value.entry? "contracts" entries' = Value.entry? "contracts" entries :=
    Value.entry?_perm h (once .contracts)
  have sourceDir : Value.entry? "source_dir" entries' = Value.entry? "source_dir" entries :=
    Value.entry?_perm h (once .sourceDir)
  have severity : Value.entry? "severity" entries' = Value.entry? "severity" entries :=
    Value.entry?_perm h (once .severity)
  unfold ofEntries readSettings readRules readContracts readSourceDir readSeverities
  rw [rules, contracts, sourceDir, severity]

/-! ### What a configuration has of its document -/

/-- A configuration as its document says. Rules are those of the document alone, without any of the built-in ones; only
    a document that does not speak of rules has these. -/
structure SaidBy (entries : List (Value × Value)) (config : CheckerConfig) : Prop where
  rules : match Value.entry? "rules" entries with
    | none => config.rules = .builtin
    | some value =>
      if value.isEmpty then ∀ category, config.rules.settings? category = none
      else RuleConfiguration.ofValue value = .ok config.rules
  contractNames : match Value.entry? "contracts" entries with
    | none => config.contractNames = [RawText.ofString "*"]
    | some (.str name) => config.contractNames = [name]
    | some (.list names) => config.contractNames = names.map Value.plain
    | some _ => False
  named : config.contractNames ≠ []
  sourceDir : match Value.entry? "source_dir" entries with
    | none => config.sourceDir = RawText.ofString "src"
    | some value => value = .str config.sourceDir
  severities : match Value.entry? "severity" entries with
    | none => config.severities = {}
    | some value => SeverityMap.ofValue value = .ok config.severities

theorem ofEntries_eq_ok {config : CheckerConfig} (h : ofEntries entries = .ok config) :
    ∃ found, readRules entries = .ok config.rules ∧ readContracts entries = .ok found ∧
      readSourceDir entries = .ok config.sourceDir ∧ readSeverities entries = .ok config.severities ∧
      contractNamesOf found = .ok config.contractNames := by
  unfold ofEntries readSettings at h
  obtain ⟨_, settings, h⟩ := exists_of_bind_eq_ok h
  obtain ⟨rules, rulesMade, settings⟩ := exists_of_bind_eq_ok settings
  obtain ⟨found, contractsMade, settings⟩ := exists_of_bind_eq_ok settings
  obtain ⟨directory, directoryMade, settings⟩ := exists_of_bind_eq_ok settings
  obtain rfl := Except.ok.inj settings
  obtain ⟨severities, severitiesMade, h⟩ := exists_of_bind_eq_ok h
  obtain ⟨names, namesMade, h⟩ := exists_of_bind_eq_ok h
  obtain rfl := Except.ok.inj h
  exact ⟨found, rulesMade, contractsMade, directoryMade, severitiesMade, namesMade⟩

theorem contractNamesOf_eq_ok {found : List Value} {names : List RawText} (h : contractNamesOf found = .ok names) :
    names = found.map Value.plain := by
  unfold contractNamesOf at h
  split at h
  · exact (Except.ok.inj h).symm
  · cases h

theorem ne_nil_of_readContracts {found : List Value} (h : readContracts entries = .ok found) : found ≠ [] := by
  unfold readContracts at h
  split at h
  · exact Except.ok.inj h ▸ List.cons_ne_nil _ _
  · exact Except.ok.inj h ▸ List.cons_ne_nil _ _
  · exact Except.ok.inj h ▸ List.cons_ne_nil _ _
  · cases h

theorem saidBy_of_ofEntries {config : CheckerConfig} (h : ofEntries entries = .ok config) : SaidBy entries config := by
  obtain ⟨found, rules, contracts, directory, severities, names⟩ := ofEntries_eq_ok h
  have names := contractNamesOf_eq_ok names
  refine ⟨?_, ?_, ?_, ?_, ?_⟩
  · unfold readRules at rules
    cases said : Value.entry? "rules" entries with
    | none =>
      rw [said] at rules
      exact (Except.ok.inj rules).symm
    | some value =>
      rw [said] at rules
      dsimp only at rules ⊢
      split
      · rename_i empty
        rw [if_pos empty] at rules
        rw [← Except.ok.inj rules]
        intro category
        cases category <;> rfl
      · rename_i present
        rwa [if_neg present] at rules
  · unfold readContracts at contracts
    split at contracts <;> rename_i said
    · rw [said, names, ← Except.ok.inj contracts]
      rfl
    · rw [said, names, ← Except.ok.inj contracts]
      rfl
    · rw [said, names, ← Except.ok.inj contracts]
    · cases contracts
  · rw [names]
    exact fun none => ne_nil_of_readContracts contracts (List.map_eq_nil_iff.mp none)
  · unfold readSourceDir at directory
    split at directory <;> rename_i said
    · rw [said]
      exact (Except.ok.inj directory).symm
    · rw [said]
      split at directory
      · cases directory
      · rw [← Except.ok.inj directory]
    · cases directory
  · unfold readSeverities at severities
    cases said : Value.entry? "severity" entries with
    | none =>
      rw [said] at severities
      exact (Except.ok.inj severities).symm
    | some value => rwa [said] at severities

end

end CheckerConfig

open CheckerConfig in
/-- A document that has content makes a configuration if it is a mapping whose parts are all accepted, and the
    configuration is as the document says; otherwise the fault is that it is no mapping, or that of its first part that
    is not accepted. The order of its keys does not count. -/
theorem document_verdict {path : Path} {value : Value} (content : value ≠ .null) :
    (∀ fs, readDocument fs path = .ok (some value) →
      (load fs path).2 = (ofValue path.text value).mapError .content) ∧
    ((∃ config, ofValue path.text value = .ok config) ↔
      ∃ entries, value = .mapping entries ∧ ∀ part : Part, part.Accepts (part.value? entries)) ∧
    (∀ e, ofValue path.text value = .error e ↔
      (∀ entries, value ≠ .mapping entries) ∧ e = .notMapping path.text ∨
        ∃ entries, value = .mapping entries ∧ FirstFault entries e) ∧
    (∀ entries entries', value = .mapping entries → entries.Perm entries' →
      (∀ part : Part, entries.countP (Value.hasKey part.key) ≤ 1) →
      ofValue path.text (.mapping entries') = ofValue path.text value) ∧
    (∀ entries config, value = .mapping entries → ofValue path.text value = .ok config → SaidBy entries config) := by
  refine ⟨fun fs read => ?_, ?_, fun e => ?_, ?_, ?_⟩
  · rw [load, read]
    rfl
  · cases value with
    | null => exact absurd rfl content
    | mapping entries =>
      refine exists_ofEntries_iff.trans ⟨fun accepts => ⟨entries, rfl, accepts⟩, ?_⟩
      rintro ⟨_, ⟨⟩, accepts⟩
      exact accepts
    | _ => exact ⟨fun ⟨_, made⟩ => (nomatch made), fun ⟨_, same, _⟩ => (nomatch same)⟩
  · cases value with
    | null => exact absurd rfl content
    | mapping entries =>
      refine ofEntries_eq_error_iff.trans ⟨fun fault => Or.inr ⟨entries, rfl, fault⟩, ?_⟩
      rintro (⟨noMapping, -⟩ | ⟨_, ⟨⟩, fault⟩)
      · exact absurd rfl (noMapping entries)
      · exact fault
    | _ =>
      constructor
      · intro refused
        exact Or.inl ⟨nofun, (Except.error.inj refused).symm⟩
      · rintro (⟨-, rfl⟩ | ⟨_, same, -⟩)
        · rfl
        · cases same
  · rintro entries entries' rfl reordered once
    exact ofEntries_perm reordered once
  · rintro entries config rfl made
    exact saidBy_of_ofEntries made

open CheckerConfig in
/-- Faults of severities, source directory and contracts, in an order other than that in which they are looked at, and
    rules that are all switched off. -/
theorem document_verdict_three_faults :
    let rules : Value × Value := (.str "rules", .null)
    let severity : Value × Value := (.str "severity", .int 5)
    let directory : Value × Value := (.str "source_dir", .str " ")
    let contracts : Value × Value := (.str "contracts", .list [])
    let path := Path.ofText "solstyle.yaml"
    Value.mapping [severity, directory, contracts, rules] ≠ .null ∧
      ofValue path.text (.mapping [severity, directory, contracts, rules]) = .error .contractsInvalid ∧
      ofValue path.text (.mapping [contracts, rules, severity, directory]) = .error .contractsInvalid ∧
      FirstFault [severity, directory, rules] .sourceDirInvalid ∧
      ∃ config, ofValue path.text (.mapping [rules]) = .ok config ∧ SaidBy [rules] config := by
  intro rules severity directory contracts path
  have content (entries : List (Value × Value)) : Value.mapping entries ≠ .null := nofun
  have fault : FirstFault [severity, directory, contracts, rules] .contractsInvalid :=
    ⟨[.rules], .contracts, [.sourceDir, .severity, .names], .list [], rfl,
      List.forall_mem_singleton.mpr (Or.inl rfl), rfl, .contracts nofun nofun⟩
  have reordered : ([severity, directory] ++ [contracts, rules]).Perm ([contracts, rules] ++ [severity, directory]) :=
    List.perm_append_comm
  have refused : ofValue path.text (.mapping [severity, directory, contracts, rules]) = .error .contractsInvalid :=
    ((document_verdict (content _)).2.2.1 _).mpr (Or.inr ⟨_, rfl, fault⟩)
  refine ⟨content _, refused, ?_, ?_, ?_⟩
  · refine ((document_verdict (content _)).2.2.2.1 _ _ rfl reordered fun part => ?_).trans refused
    cases part <;> decide
  · have refused : ofValue path.text (.mapping [severity, directory, rules]) = .error .sourceDirInvalid := rfl
    rcases ((document_verdict (content _)).2.2.1 _).mp refused with ⟨noMapping, -⟩ | ⟨_, same, fault⟩
    · exact absurd rfl (noMapping _)
    · exact Value.mapping.inj same ▸ fault
  · have accepts (part : Part) : part.Accepts (part.value? [rules]) := by
      cases part with
      | rules => exact Or.inl rfl
      | _ => exact trivial
    obtain ⟨config, made⟩ := (document_verdict (content [rules])).2.1.mpr ⟨_, rfl, accepts⟩
    exact ⟨config, made, (document_verdict (content [rules])).2.2.2.2 _ config rfl made⟩

open CheckerConfig in
/-- A number with more digits than can be shown is no name, although everything is as it is meant to be: a list with a
    name, and nothing else. -/
theorem name_of_long_number :
    let entries : List (Value × Value) := [(.str "contracts", .list [.int (Nat.pow 16 3600)])]
    (∀ part ∈ [Part.rules, .contracts, .sourceDir, .severity], part.Accepts (part.value? entries)) ∧
      ofValue "solstyle.yaml" (.mapping entries) = .error .numberTooLong ∧
      ¬((∃ config, ofValue "solstyle.yaml" (.mapping entries) = .ok config) ↔
        ∀ part ∈ [Part.rules, .contracts, .sourceDir, .severity], part.Accepts (part.value? entries)) := by
  intro entries
  have meant : ∀ part ∈ [Part.rules, .contracts, .sourceDir, .severity], part.Accepts (part.value? entries) := by
    simp only [List.forall_mem_cons]
    exact ⟨trivial, Or.inr ⟨_, _, rfl⟩, trivial, trivial, nofun⟩
  have long : (Value.int (Nat.pow 16 3600)).isShowable = false := by decide +kernel
  have refused : ofEntries entries = .error .numberTooLong :=
    ofEntries_eq_error_iff.mpr ⟨[.rules, .contracts, .sourceDir, .severity], .names, [], _, rfl, meant, rfl,
      .names List.mem_cons_self long⟩
  refine ⟨meant, refused, fun accepted => ?_⟩
  obtain ⟨config, made⟩ := accepted.mpr meant
  rw [show ofValue "solstyle.yaml" (.mapping entries) = _ from refused] at made
  cases made

end SolidityLint

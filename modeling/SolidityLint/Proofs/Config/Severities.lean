import SolidityLint.Config.Severities
import SolidityLint.Proofs.Config.Checks

/-! Which severities a mapping sets. A value is accepted if it is null, or a mapping in which every entry names a
    severity and has a key that can be shown; otherwise the fault is that of the first entry that does not. -/

namespace SolidityLint

theorem Value.areShowable_iff {values : List Value} :
    areShowable values = true ↔ ∀ value ∈ values, value.isShowable = true := by
  induction values with
  | nil => simp [areShowable]
  | cons value rest ih => simp [areShowable, ih]

theorem Value.areShowable_eq_false_iff {values : List Value} :
    areShowable values = false ↔ ∃ value ∈ values, value.isShowable = false := by
  induction values with
  | nil => simp [areShowable]
  | cons value rest ih => simp only [areShowable, Bool.and_eq_false_iff, ih, List.mem_cons, exists_eq_or_imp]

namespace SeverityMap

/-- An entry that sets a severity: its value names one, and its key can be shown. -/
def Sets (entry : Value × Value) : Prop :=
  (∃ severity, Severity.ofValue? entry.2 = some severity) ∧ entry.1.isShowable = true

/-- What is wrong with an entry that sets none. -/
inductive EntryFault : Value × Value → ConfigError → Prop
  | value {key value : Value} (unknown : Severity.ofValue? value = none) :
    EntryFault (key, value) (.reported (.unknownSeverity key value))
  | key {key value : Value} {severity : Severity} (known : Severity.ofValue? value = some severity)
    (long : key.isShowable = false) : EntryFault (key, value) .numberTooLong

/-- What is wrong with a value that describes no severities. -/
inductive Fault : Value → ConfigError → Prop
  | form {value : Value} (present : value ≠ .null) (noMapping : ∀ entries, value ≠ .mapping entries) :
    Fault value .severityNotMapping
  | entry {before after : List (Value × Value)} {entry : Value × Value} {e : ConfigError}
    (earlier : ∀ other ∈ before, Sets other) (fault : EntryFault entry e) :
    Fault (.mapping (before ++ entry :: after)) e

variable {entries : List (Value × Value)} {entry : Value × Value} {value : Value} {e : ConfigError}

/-- The check of an entry, whatever stands behind it. -/
def checkEntry (entry : Value × Value) : Except ConfigError Unit :=
  match Severity.ofValue? entry.2 with
  | none => .error (.reported (.unknownSeverity entry.1 entry.2))
  | some _ => if entry.1.isShowable then .ok () else .error .numberTooLong

theorem checkEntry_eq_ok_iff : checkEntry entry = .ok () ↔ Sets entry := by
  unfold checkEntry Sets
  cases known : Severity.ofValue? entry.2 with
  | none => simp
  | some severity => cases entry.1.isShowable <;> simp

theorem checkEntry_eq_error_iff : checkEntry entry = .error e ↔ EntryFault entry e := by
  obtain ⟨key, value⟩ := entry
  unfold checkEntry
  constructor
  · cases known : Severity.ofValue? value with
    | none =>
      rintro ⟨⟩
      exact .value known
    | some severity =>
      cases long : key.isShowable with
      | true => exact nofun
      | false =>
        rintro ⟨⟩
        exact .key known long
  · rintro (unknown | ⟨known, long⟩)
    · rw [unknown]
    · simp [known, long]

/-- Entries are read one after another, and each by itself. -/
theorem readEntries_map (entries : List (Value × Value)) :
    (readEntries entries).map (fun _ => ()) = entries.forM checkEntry := by
  induction entries with
  | nil => rfl
  | cons entry rest ih =>
    obtain ⟨key, value⟩ := entry
    rw [forM_cons, ← ih, readEntries, checkEntry]
    dsimp only
    cases Severity.ofValue? value with
    | none => rfl
    | some severity =>
      cases key.isShowable with
      | false => rfl
      | true => cases readEntries rest <;> rfl

theorem exists_readEntries_iff : (∃ read, readEntries entries = .ok read) ↔ ∀ entry ∈ entries, Sets entry := by
  rw [← map_unit_eq_ok_iff, readEntries_map, forM_eq_ok_iff]
  simp only [checkEntry_eq_ok_iff]

/-- Entries behind the first faulty one are not looked at. -/
theorem readEntries_eq_error_iff : readEntries entries = .error e ↔ Fault (.mapping entries) e := by
  rw [← map_unit_eq_error_iff, readEntries_map, forM_eq_error_iff]
  simp only [checkEntry_eq_ok_iff, checkEntry_eq_error_iff]
  constructor
  · rintro ⟨before, entry, after, rfl, earlier, fault⟩
    exact .entry earlier fault
  · intro fault
    cases fault with
    | form _ noMapping => exact absurd rfl (noMapping entries)
    | entry earlier fault => exact ⟨_, _, _, rfl, earlier, fault⟩

theorem ofValue_eq_error_iff : ofValue value = .error e ↔ Fault value e := by
  cases value with
  | null => exact ⟨nofun, fun fault => by cases fault; contradiction⟩
  | mapping entries => exact map_eq_error_iff.trans readEntries_eq_error_iff
  | _ =>
    constructor
    · rintro ⟨⟩
      exact .form nofun nofun
    · rintro ⟨⟩
      rfl

theorem exists_ofValue_iff :
    (∃ severities, ofValue value = .ok severities) ↔
      value = .null ∨ ∃ entries, value = .mapping entries ∧ ∀ entry ∈ entries, Sets entry := by
  cases value with
  | null => exact ⟨fun _ => Or.inl rfl, fun _ => ⟨_, rfl⟩⟩
  | mapping entries =>
    rw [ofValue, exists_map_eq_ok_iff, exists_readEntries_iff]
    simp
  | _ => exact ⟨fun ⟨_, made⟩ => (nomatch made), by simp⟩

end SeverityMap

end SolidityLint

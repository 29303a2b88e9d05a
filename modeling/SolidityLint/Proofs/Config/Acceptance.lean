import SolidityLint.Proofs.Config.Checks
import SolidityLint.Proofs.Config.RoundTrip
import SolidityLint.Proofs.Config.Severities

/-! Which values a configuration accepts, and what is said of the others. Entries are looked at in their order, and in
    a category those of its rules; the first one that its rule or its category does not admit is the fault, whatever
    comes behind it. What a configuration holds for a rule is the value that was found under its key, or nothing where
    that was null or false. -/

namespace SolidityLint

open Value (lookup hasKey)

/-! ### Values of a rule -/

/-- The values that a rule admits: a truth value for a switch, its own style, or a positive whole number of any size for
    a limit; null for all of them, and false also for those that are no switch. -/
def Rule.Admits (rule : Rule) (value : Value) : Prop :=
  match rule.settingKind with
  | .switch => value = .null ∨ ∃ on, value = .bool on
  | .style style => value = .null ∨ value = .bool false ∨ value = .str style.name
  | .limit => value = .null ∨ value = .bool false ∨ ∃ n : Int, 0 < n ∧ value = .int n

/-- What is wrong with a value that a rule does not admit. -/
def Rule.fault (rule : Rule) (value : Value) : ConfigError :=
  match rule.settingKind with
  | .switch => .notSwitch rule value
  | .style style => .notStyle rule style value
  | .limit => .notLimit rule value

namespace Rule

variable {rule : Rule} {value : Value}

theorem accept_cases (rule : Rule) (value : Value) :
    (rule.Admits value ∧ ∃ setting, rule.accept value = .ok setting) ∨
      ¬rule.Admits value ∧ rule.accept value = .error (rule.fault value) := by
  unfold Admits accept fault
  cases rule.settingKind with
  | switch =>
    cases value with
    | null => exact Or.inl ⟨Or.inl rfl, _, rfl⟩
    | bool on => exact Or.inl ⟨Or.inr ⟨on, rfl⟩, _, rfl⟩
    | _ => exact Or.inr ⟨by simp, rfl⟩
  | style style =>
    cases value with
    | null => exact Or.inl ⟨Or.inl rfl, _, rfl⟩
    | bool on => cases on with
      | false => exact Or.inl ⟨Or.inr (Or.inl rfl), _, rfl⟩
      | true => exact Or.inr ⟨by simp, rfl⟩
    | str s =>
      by_cases own : s = style.name
      · exact Or.inl ⟨Or.inr (Or.inr (congrArg Value.str own)), _, if_pos own⟩
      · exact Or.inr ⟨by simp [own], if_neg own⟩
    | _ => exact Or.inr ⟨by simp, rfl⟩
  | limit =>
    cases value with
    | null => exact Or.inl ⟨Or.inl rfl, _, rfl⟩
    | bool on => cases on with
      | false => exact Or.inl ⟨Or.inr (Or.inl rfl), _, rfl⟩
      | true => exact Or.inr ⟨by simp, rfl⟩
    | int n =>
      by_cases positive : 0 < n
      · exact Or.inl ⟨Or.inr (Or.inr ⟨n, positive, rfl⟩), _, dif_pos (Int.lt_toNat.mpr positive)⟩
      · exact Or.inr ⟨by simp [positive], dif_neg (mt Int.lt_toNat.mp positive)⟩
    | _ => exact Or.inr ⟨by simp, rfl⟩

/-- The check of a value by its rule alone. -/
def check (rule : Rule) (value : Value) : Except ConfigError Unit :=
  (rule.accept value).map fun _ => ()

theorem check_eq_ok_iff : rule.check value = .ok () ↔ rule.Admits value := by
  rw [check, map_unit_eq_ok_iff]
  rcases rule.accept_cases value with ⟨admitted, accepted⟩ | ⟨refused, fault⟩
  · exact iff_of_true accepted admitted
  · exact iff_of_false (by simp [fault]) refused

theorem check_eq_error_iff {e : ConfigError} :
    rule.check value = .error e ↔ ¬rule.Admits value ∧ rule.fault value = e := by
  rw [check, map_unit_eq_error_iff]
  rcases rule.accept_cases value with ⟨admitted, setting, accepted⟩ | ⟨refused, fault⟩
  · simp [accepted, admitted]
  · simp [fault, refused]

/-- The text of a fault starts with the rule it is about. -/
theorem message_fault (rule : Rule) (value : Value) :
    ∃ rest : RawText, (rule.fault value).message = "Rule '" ++ rule.id ++ "' " ++ rest := by
  unfold fault
  cases rule.settingKind with
  | switch =>
    refine ⟨"expects true/false, got " ++ ConfigError.shown value, RawText.points_injective ?_⟩
    simp only [ConfigError.message, RawText.points_append, List.append_assoc]
    rfl
  | style style =>
    refine ⟨"supports only '" ++ style.name ++ "', got " ++ ConfigError.shown value, RawText.points_injective ?_⟩
    simp only [ConfigError.message, RawText.points_append, List.append_assoc]
    rfl
  | limit =>
    refine ⟨"expects a positive integer, got " ++ ConfigError.shown value, RawText.points_injective ?_⟩
    simp only [ConfigError.message, RawText.points_append, List.append_assoc]
    rfl

end Rule

/-! ### Entries of a category -/

/-- Whether a category admits an entry: it is of none of its rules, or its rule admits the value. -/
def Category.AdmitsEntry (category : Category) (entry : Value × Value) : Prop :=
  ∀ rule : Rule, rule.category = category → entry.1 = .str rule.key → rule.Admits entry.2

/-- The values of a category: null, false, or a mapping of which it admits every entry. -/
def Category.Admits (category : Category) (value : Value) : Prop :=
  value = .null ∨ value = .bool false ∨
    ∃ entries, value = .mapping entries ∧ ∀ entry ∈ entries, category.AdmitsEntry entry

/-- What is wrong with a value that a category does not admit: it is no mapping, or it has an entry that its rule does
    not admit, the first one of them. -/
inductive Category.Fault (category : Category) : Value → ConfigError → Prop
  | form {value : Value} (present : value ≠ .null) (on : value ≠ .bool false)
    (noMapping : ∀ entries, value ≠ .mapping entries) : Fault category value (.categoryNotMapping category)
  | rule {before after : List (Value × Value)} {rule : Rule} {value : Value}
    (earlier : ∀ other ∈ before, category.AdmitsEntry other) (own : rule.category = category)
    (refused : ¬rule.Admits value) :
    Fault category (.mapping (before ++ (.str rule.key, value) :: after)) (rule.fault value)

namespace Category

variable {category : Category} {entry : Value × Value} {value : Value} {e : ConfigError}

/-- The check of an entry by its rule. -/
def checkEntry (category : Category) (entry : Value × Value) : Except ConfigError Unit :=
  match Rule.ofKey? category entry.1 with
  | none => .ok ()
  | some rule => rule.check entry.2

theorem checkEntry_eq_ok_iff : category.checkEntry entry = .ok () ↔ category.AdmitsEntry entry := by
  unfold checkEntry AdmitsEntry
  cases known : Rule.ofKey? category entry.1 with
  | none => exact ⟨fun _ rule own key => absurd key (Rule.key_ne_of_unknown known own), fun _ => rfl⟩
  | some rule =>
    obtain ⟨own, key⟩ := Rule.ofKey?_eq_some_iff.mp known
    refine Rule.check_eq_ok_iff.trans ⟨fun admitted other _ key' => ?_, fun admitted => admitted rule own key⟩
    obtain rfl := Rule.str_key_injective (key.symm.trans key')
    exact admitted

theorem checkEntry_eq_error_iff : category.checkEntry entry = .error e ↔
    ∃ rule : Rule, rule.category = category ∧ entry.1 = .str rule.key ∧ ¬rule.Admits entry.2 ∧
      rule.fault entry.2 = e := by
  unfold checkEntry
  cases known : Rule.ofKey? category entry.1 with
  | none => exact ⟨nofun, fun ⟨rule, own, key, _⟩ => absurd key (Rule.key_ne_of_unknown known own)⟩
  | some rule =>
    obtain ⟨own, key⟩ := Rule.ofKey?_eq_some_iff.mp known
    refine Rule.check_eq_error_iff.trans ⟨fun refused => ⟨rule, own, key, refused⟩, ?_⟩
    rintro ⟨other, -, key', refused⟩
    obtain rfl := Rule.str_key_injective (key.symm.trans key')
    exact refused

/-- Entries are read one after another, and each by itself. -/
theorem readEntries_map (entries : List (Value × Value)) :
    (category.readEntries entries).map (fun _ => ()) = entries.forM category.checkEntry := by
  induction entries with
  | nil => rfl
  | cons entry rest ih =>
    obtain ⟨key, value⟩ := entry
    rw [forM_cons, ← ih, checkEntry]
    cases known : Rule.ofKey? category key with
    | none =>
      rw [readEntries_cons_of_none known]
      rfl
    | some rule =>
      rw [readEntries, known]
      dsimp only [Rule.check]
      cases rule.accept value with
      | error e => rfl
      | ok setting => cases category.readEntries rest <;> rfl

/-- The check of a value by its category. -/
def check (category : Category) (value : Value) : Except ConfigError Unit :=
  (category.read value).map fun _ => ()

theorem check_mapping (entries : List (Value × Value)) :
    category.check (.mapping entries) = entries.forM category.checkEntry := by
  rw [← readEntries_map, check, read]
  cases category.readEntries entries <;> rfl

theorem check_eq_ok_iff : category.check value = .ok () ↔ category.Admits value := by
  cases value with
  | null => exact ⟨fun _ => Or.inl rfl, fun _ => rfl⟩
  | bool on => cases on with
    | false => exact ⟨fun _ => Or.inr (Or.inl rfl), fun _ => rfl⟩
    | true => exact ⟨nofun, by simp [Admits]⟩
  | mapping entries =>
    rw [check_mapping, forM_eq_ok_iff]
    simp [Admits, checkEntry_eq_ok_iff]
  | _ => exact ⟨nofun, by simp [Admits]⟩

theorem check_eq_error_iff : category.check value = .error e ↔ category.Fault value e := by
  cases value with
  | null => exact ⟨nofun, fun fault => by cases fault; contradiction⟩
  | bool on => cases on with
    | false => exact ⟨nofun, fun fault => by cases fault; contradiction⟩
    | true =>
      constructor
      · rintro ⟨⟩
        exact .form nofun nofun nofun
      · rintro ⟨⟩
        rfl
  | mapping entries =>
    rw [check_mapping, forM_eq_error_iff]
    constructor
    · rintro ⟨before, ⟨_, value⟩, after, rfl, earlier, failed⟩
      obtain ⟨rule, own, rfl, refused, rfl⟩ := checkEntry_eq_error_iff.mp failed
      exact .rule (fun other ho => checkEntry_eq_ok_iff.mp (earlier other ho)) own refused
    · intro fault
      cases fault with
      | form _ _ noMapping => exact absurd rfl (noMapping entries)
      | rule earlier own refused =>
        exact ⟨_, _, _, rfl, fun other ho => checkEntry_eq_ok_iff.mpr (earlier other ho),
          checkEntry_eq_error_iff.mpr ⟨_, own, rfl, refused, rfl⟩⟩
  | _ =>
    constructor
    · rintro ⟨⟩
      exact .form nofun nofun nofun
    · rintro ⟨⟩
      rfl

end Category

/-! ### Entries of a configuration -/

theorem ConfigError.reported_eq_iff {fault e : ConfigError} :
    fault.reported = e ↔ (∀ value ∈ fault.values, value.isShowable = true) ∧ e = fault ∨
      (∃ value ∈ fault.values, value.isShowable = false) ∧ e = .numberTooLong := by
  rw [reported, ← Value.areShowable_iff, ← Value.areShowable_eq_false_iff]
  cases Value.areShowable fault.values <;> simp [eq_comm]

namespace RuleConfiguration

/-- Whether an entry is admitted: it is of no category, or its category admits the value. -/
def AdmitsEntry (entry : Value × Value) : Prop :=
  ∀ category : Category, entry.1 = .str category.key → category.Admits entry.2

/-- What is wrong with a value that makes no configuration: it is no mapping, or it has an entry that its category does
    not admit, the first one of them. -/
inductive Fault : Value → ConfigError → Prop
  | form {value : Value} (noMapping : ∀ entries, value ≠ .mapping entries) : Fault value .rulesNotMapping
  | category {before after : List (Value × Value)} {category : Category} {value : Value} {e : ConfigError}
    (earlier : ∀ other ∈ before, AdmitsEntry other) (fault : category.Fault value e) :
    Fault (.mapping (before ++ (.str category.key, value) :: after)) e

variable {entries : List (Value × Value)} {entry : Value × Value} {value : Value} {e : ConfigError}

/-- The check of an entry by its category. -/
def checkEntry (entry : Value × Value) : Except ConfigError Unit :=
  match Category.ofKey? entry.1 with
  | none => .ok ()
  | some category => category.check entry.2

theorem checkEntry_eq_ok_iff : checkEntry entry = .ok () ↔ AdmitsEntry entry := by
  unfold checkEntry AdmitsEntry
  cases known : Category.ofKey? entry.1 with
  | none => exact ⟨fun _ category key => absurd key (Category.key_ne_of_unknown known category), fun _ => rfl⟩
  | some category =>
    have key := Category.ofKey?_eq_some_iff.mp known
    refine Category.check_eq_ok_iff.trans ⟨fun admitted other key' => ?_, fun admitted => admitted category key⟩
    obtain rfl := Category.str_key_injective (key.symm.trans key')
    exact admitted

theorem checkEntry_eq_error_iff : checkEntry entry = .error e ↔
    ∃ category : Category, entry.1 = .str category.key ∧ category.Fault entry.2 e := by
  unfold checkEntry
  cases known : Category.ofKey? entry.1 with
  | none => exact ⟨nofun, fun ⟨category, key, _⟩ => absurd key (Category.key_ne_of_unknown known category)⟩
  | some category =>
    have key := Category.ofKey?_eq_some_iff.mp known
    refine Category.check_eq_error_iff.trans ⟨fun fault => ⟨category, key, fault⟩, ?_⟩
    rintro ⟨other, key', fault⟩
    obtain rfl := Category.str_key_injective (key.symm.trans key')
    exact fault

theorem readCategories_map (entries : List (Value × Value)) :
    (readCategories entries).map (fun _ => ()) = entries.forM checkEntry := by
  induction entries with
  | nil => rfl
  | cons entry rest ih =>
    obtain ⟨key, value⟩ := entry
    rw [forM_cons, ← ih, checkEntry]
    cases known : Category.ofKey? key with
    | none =>
      rw [readCategories_cons_of_none known]
      rfl
    | some category =>
      rw [readCategories, known]
      dsimp only [Category.check]
      cases category.read value with
      | error e => rfl
      | ok settings => cases readCategories rest <;> rfl

theorem exists_ofValue_iff :
    (∃ rules, ofValue value = .ok rules) ↔
      ∃ entries, value = .mapping entries ∧ ∀ entry ∈ entries, AdmitsEntry entry := by
  cases value with
  | mapping entries =>
    have read : (∃ rules, ofValue (.mapping entries) = .ok rules) ↔ ∃ made, readCategories entries = .ok made := by
      simp only [ofValue_mapping_eq_ok_iff]
      exact ⟨fun ⟨_, made, read, _⟩ => ⟨made, read⟩, fun ⟨made, read⟩ => ⟨_, made, read, rfl⟩⟩
    rw [read, ← map_unit_eq_ok_iff, readCategories_map, forM_eq_ok_iff]
    simp [checkEntry_eq_ok_iff]
  | _ => exact ⟨fun ⟨_, made⟩ => (nomatch made), fun ⟨_, same, _⟩ => (nomatch same)⟩

theorem readCategories_eq_error_iff : readCategories entries = .error e ↔ Fault (.mapping entries) e := by
  rw [← map_unit_eq_error_iff, readCategories_map, forM_eq_error_iff]
  constructor
  · rintro ⟨before, ⟨_, value⟩, after, rfl, earlier, failed⟩
    obtain ⟨category, rfl, fault⟩ := checkEntry_eq_error_iff.mp failed
    exact .category (fun other ho => checkEntry_eq_ok_iff.mp (earlier other ho)) fault
  · intro fault
    cases fault with
    | form noMapping => exact absurd rfl (noMapping entries)
    | category earlier fault =>
      exact ⟨_, _, _, rfl, fun other ho => checkEntry_eq_ok_iff.mpr (earlier other ho),
        checkEntry_eq_error_iff.mpr ⟨_, rfl, fault⟩⟩

/-- A fault is told unless its text cannot be shown. -/
theorem ofValue_eq_error_iff : ofValue value = .error e ↔ ∃ fault, Fault value fault ∧ fault.reported = e := by
  cases value with
  | mapping entries =>
    rw [ofValue, mapError_eq_error_iff]
    simp only [map_eq_error_iff, readCategories_eq_error_iff]
  | _ =>
    constructor
    · rintro ⟨⟩
      exact ⟨_, .form (by rintro _ ⟨⟩), rfl⟩
    · rintro ⟨_, ⟨⟩, rfl⟩
      rfl

end RuleConfiguration

/-! ### What a configuration holds -/

/-- The values that a configuration can hold for a rule. -/
def Rule.Holds (rule : Rule) (held : Value) : Prop :=
  match rule.settingKind with
  | .switch => ∃ on, held = .bool on
  | .style style => held = .null ∨ held = .str style.name
  | .limit => held = .null ∨ ∃ n : Int, 0 < n ∧ held = .int n

/-- The value that a configuration holds for a rule; none in a category that is off. -/
def RuleConfiguration.held? (rules : RuleConfiguration) (rule : Rule) : Option Value :=
  (rules.settings? rule.category).map fun setting => rule.valueOf (setting rule)

theorem Rule.holds_valueOf {rule : Rule} {setting : Setting} (h : rule.takes setting = true) :
    rule.Holds (rule.valueOf setting) := by
  unfold takes at h
  unfold Holds valueOf
  cases kind : rule.settingKind with
  | switch =>
    rw [kind] at h
    cases setting with
    | off => exact ⟨false, rfl⟩
    | on => exact ⟨true, rfl⟩
    | limit limit => cases h
  | style style =>
    rw [kind] at h
    cases setting with
    | off => exact Or.inl rfl
    | on => exact Or.inr rfl
    | limit limit => cases h
  | limit =>
    rw [kind] at h
    cases setting with
    | off => exact Or.inl rfl
    | on => cases h
    | limit limit => exact Or.inr ⟨limit.width, Int.natCast_pos.mpr limit.width_pos, rfl⟩

/-- A value that is accepted is held as it is, unless it switches the rule off. -/
theorem Rule.valueOf_of_accept {rule : Rule} {value : Value} {setting : Setting}
    (h : rule.accept value = .ok setting) :
    rule.valueOf setting = value ∨ (value = .null ∨ value = .bool false) ∧ setting = .off := by
  unfold accept at h
  unfold valueOf
  cases kind : rule.settingKind with
  | switch =>
    rw [kind] at h
    cases value with
    | null => exact Or.inr ⟨Or.inl rfl, (Except.ok.inj h).symm⟩
    | bool on => cases on <;> cases h <;> exact Or.inl rfl
    | _ => cases h
  | style style =>
    rw [kind] at h
    cases value with
    | null => exact Or.inr ⟨Or.inl rfl, (Except.ok.inj h).symm⟩
    | bool on => cases on with
      | false => exact Or.inr ⟨Or.inr rfl, (Except.ok.inj h).symm⟩
      | true => cases h
    | str s =>
      dsimp only at h
      split at h
      · rename_i own
        cases h
        exact Or.inl (congrArg Value.str own.symm)
      · cases h
    | _ => cases h
  | limit =>
    rw [kind] at h
    cases value with
    | null => exact Or.inr ⟨Or.inl rfl, (Except.ok.inj h).symm⟩
    | bool on => cases on with
      | false => exact Or.inr ⟨Or.inr rfl, (Except.ok.inj h).symm⟩
      | true => cases h
    | int n =>
      dsimp only at h
      split at h
      · rename_i positive
        cases h
        exact Or.inl (congrArg Value.int (Int.toNat_of_nonneg (Int.le_of_lt (Int.lt_toNat.mp positive))))
      · cases h
    | _ => cases h

namespace RuleConfiguration

variable {rules : RuleConfiguration} {rule : Rule} {held : Value}

theorem holds_of_held? (h : rules.held? rule = some held) : rule.Holds held := by
  obtain ⟨setting, on, rfl⟩ := Option.map_eq_some_iff.mp h
  exact Rule.holds_valueOf (takes_setting on rfl)

/-- What is held for a rule is what its category has under its key, or nothing where that is null or false. -/
theorem exists_lookup_of_held? {entries : List (Value × Value)} (made : ofValue (.mapping entries) = .ok rules)
    (once : entries.countP (hasKey rule.category.key) ≤ 1) (h : rules.held? rule = some held) :
    ∃ inner, (.str rule.category.key, .mapping inner) ∈ entries ∧
      (held = lookup rule.key inner ∨
        (lookup rule.key inner = .null ∨ lookup rule.key inner = .bool false) ∧ held = rule.valueOf .off) := by
  obtain ⟨setting, on, rfl⟩ := Option.map_eq_some_iff.mp h
  have told := tells_of_ofValue made once
  rw [on] at told
  obtain ⟨inner, mapping, accepted⟩ := told
  refine ⟨inner, ?_, ?_⟩
  · rcases Value.lookup_eq_null_or_mem rule.category.key entries with absent | there
    · rw [absent] at mapping
      cases mapping
    · rwa [mapping] at there
  · rcases Rule.valueOf_of_accept (accepted rule rfl) with same | ⟨empty, off⟩
    · exact Or.inl same
    · exact Or.inr ⟨empty, congrArg rule.valueOf off⟩

end RuleConfiguration

open RuleConfiguration in
/-- A value makes a configuration just if it is a mapping, and each of its entries that is of a category is null, false
    or a mapping of which each entry that is of a rule of the category has a value that the rule admits. Otherwise the
    fault is the first in the order of the entries, whatever comes behind it; its text names the category or the rule,
    and if a number in the value that it shows has too many digits, that is told instead. What a configuration holds
    for a rule is a truth value, the rule's own style, a positive limit or null, and it is the value that its category
    has under the key of the rule, or nothing where that is null or false. -/
theorem configuration_verdict (raw : Value) :
    ((∃ rules, ofValue raw = .ok rules) ↔ ∃ entries, raw = .mapping entries ∧ ∀ entry ∈ entries, AdmitsEntry entry) ∧
    (∀ e, ofValue raw = .error e ↔ ∃ fault, Fault raw fault ∧
      ((∀ value ∈ fault.values, value.isShowable = true) ∧ e = fault ∨
        (∃ value ∈ fault.values, value.isShowable = false) ∧ e = .numberTooLong)) ∧
    (∀ category : Category, (ConfigError.categoryNotMapping category).message =
      "Rule category '" ++ category.key ++ "' must be a mapping") ∧
    (∀ (rule : Rule) (value : Value), ∃ rest : RawText, (rule.fault value).message =
      "Rule '" ++ rule.id ++ "' " ++ rest) ∧
    (∀ rules, ofValue raw = .ok rules → ∀ rule held, rules.held? rule = some held → rule.Holds held) ∧
    (∀ entries rules, raw = .mapping entries → (∀ category : Category, entries.countP (hasKey category.key) ≤ 1) →
      ofValue raw = .ok rules → ∀ rule held, rules.held? rule = some held →
      ∃ inner, (.str rule.category.key, .mapping inner) ∈ entries ∧
        (held = lookup rule.key inner ∨
          (lookup rule.key inner = .null ∨ lookup rule.key inner = .bool false) ∧ held = rule.valueOf .off)) := by
  refine ⟨exists_ofValue_iff, fun e => ?_, fun category => rfl, Rule.message_fault, ?_, ?_⟩
  · simp only [ofValue_eq_error_iff, ConfigError.reported_eq_iff]
  · intro rules _ rule held there
    exact holds_of_held? there
  · rintro entries rules rfl once made rule held there
    exact exists_lookup_of_held? made (once _) there

open RuleConfiguration in
/-- Two faults of a category, and behind it one of another category; and a limit beyond all machine words. -/
theorem configuration_verdict_two_faults :
    let layout : Value × Value :=
      (.str "layout", .mapping [(.str "maxLineLength", .int (1000000000000000000000)), (.str "noTabs", .null)])
    let naming : Value × Value :=
      (.str "naming", .mapping [(.str "casing", .int 0), (.str "constants", .str "CapWords"),
        (.str "contracts", .bool true)])
    let imports : Value × Value := (.str "imports", .int 0)
    ofValue (.mapping [layout, naming, imports]) = .error (.notStyle .constants .upperCase (.str "CapWords")) ∧
      ∃ rules, ofValue (.mapping [layout]) = .ok rules ∧ rules.held? .maxLineLength = some (.int (1000000000000000000000)) ∧
        Rule.maxLineLength.Holds (.int (1000000000000000000000)) := by
  intro layout naming imports
  have admitted : AdmitsEntry layout := checkEntry_eq_ok_iff.mp rfl
  have constants : Category.naming.Fault naming.2 (Rule.constants.fault (.str "CapWords")) :=
    Category.check_eq_error_iff.mp rfl
  have first : Fault (.mapping ([layout] ++ (.str Category.naming.key, naming.2) :: [imports]))
      (Rule.constants.fault (.str "CapWords")) :=
    .category (fun other ho => by rwa [List.mem_singleton.mp ho]) constants
  obtain ⟨rules, made⟩ := (configuration_verdict (.mapping [layout])).1.mpr
    ⟨_, rfl, fun entry he => by rwa [List.mem_singleton.mp he]⟩
  have there : rules.held? .maxLineLength = some (.int (1000000000000000000000)) := by
    have computed : (ofValue (.mapping [layout])).map (fun rules => rules.held? .maxLineLength) =
        .ok (some (.int (1000000000000000000000))) := rfl
    rw [made] at computed
    exact Except.ok.inj computed
  refine ⟨((configuration_verdict _).2.1 _).mpr ⟨_, first, Or.inl ⟨fun value hv => ?_, rfl⟩⟩, rules, made, there,
    (configuration_verdict _).2.2.2.2.1 rules made _ _ there⟩
  rw [List.mem_singleton.mp hv]
  rfl

open RuleConfiguration in
/-- A limit that is refused for being negative is not told, since it has more digits than can be shown. -/
theorem fault_of_long_number :
    let limit : Value := .int (-(Nat.pow 16 3600))
    let raw : Value := .mapping [(.str "layout", .mapping [(.str "maxLineLength", limit)])]
    Fault raw (.notLimit .maxLineLength limit) ∧ ofValue raw = .error .numberTooLong ∧
      ¬∀ fault, Fault raw fault → ofValue raw = .error fault := by
  intro limit raw
  have refused : ¬Rule.maxLineLength.Admits limit := by
    rintro (h | h | ⟨n, positive, h⟩)
    · exact nomatch (show Value.int _ = .null from h)
    · exact nomatch (show Value.int _ = .bool false from h)
    · obtain rfl := Value.int.inj h
      omega
  have inLayout : Category.layout.Fault (.mapping ([] ++ (.str Rule.maxLineLength.key, limit) :: []))
      (.notLimit .maxLineLength limit) := .rule nofun rfl refused
  have fault : Fault (.mapping ([] ++ (.str Category.layout.key, _) :: [])) (.notLimit .maxLineLength limit) :=
    .category nofun inLayout
  have long : limit.isShowable = false := by decide +kernel
  have told : ofValue raw = .error .numberTooLong :=
    ofValue_eq_error_iff.mpr
      ⟨_, fault, ConfigError.reported_eq_iff.mpr (Or.inr ⟨⟨limit, List.mem_singleton_self limit, long⟩, rfl⟩)⟩
  refine ⟨fault, told, fun allTold => ?_⟩
  rw [allTold _ fault] at told
  cases told

end SolidityLint

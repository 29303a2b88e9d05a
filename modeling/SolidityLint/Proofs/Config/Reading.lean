import SolidityLint.Proofs.Config.Settings
import SolidityLint.Proofs.Identifiers
import SolidityLint.Proofs.Value.Lookup

/-! What the mapping of a configuration tells, key by key. Reading it goes through its entries one after another, but
    all that counts in the end is what is found under the keys of the categories and of their rules
    (`RuleConfiguration.ofValue_eq_ok_iff`). -/

namespace SolidityLint

open Value (lookup hasKey)

/-! ### Keys -/

theorem Category.str_key_injective {a b : Category} (h : Value.str a.key = .str b.key) : a = b :=
  key_injective (RawText.ofString_injective (Value.str.inj h))

theorem Rule.str_key_injective {a b : Rule} (h : Value.str a.key = .str b.key) : a = b :=
  key_injective (RawText.ofString_injective (Value.str.inj h))

theorem Category.ofKey?_eq_some_iff {key : Value} {category : Category} :
    Category.ofKey? key = some category ↔ key = .str category.key := by
  constructor
  · intro h
    cases key with
    | str s =>
      have same : RawText.ofString category.key = s := by simpa using List.find?_some h
      rw [same]
    | _ => cases h
  · rintro rfl
    cases category <;> decide

theorem Rule.ofKey?_eq_some_iff {category : Category} {key : Value} {rule : Rule} :
    Rule.ofKey? category key = some rule ↔ rule.category = category ∧ key = .str rule.key := by
  constructor
  · intro h
    cases key with
    | str s =>
      obtain ⟨own, same⟩ : rule.category = category ∧ RawText.ofString rule.key = s := by
        simpa using List.find?_some h
      exact ⟨own, by rw [same]⟩
    | _ => cases h
  · rintro ⟨rfl, rfl⟩
    cases rule <;> decide

theorem Category.key_ne_of_unknown {key : Value} (unknown : Category.ofKey? key = none) (category : Category) :
    key ≠ .str category.key := fun same => by
  rw [Category.ofKey?_eq_some_iff.mpr same] at unknown
  cases unknown

theorem Rule.key_ne_of_unknown {category : Category} {key : Value} (unknown : Rule.ofKey? category key = none)
    {rule : Rule} (own : rule.category = category) : key ≠ .str rule.key := fun same => by
  rw [Rule.ofKey?_eq_some_iff.mpr ⟨own, same⟩] at unknown
  cases unknown

/-! ### Settings that a rule takes -/

/-- Whether a rule can have a setting: the rule with a limit has no mere switch, and the other rules have no limit. -/
def Rule.takes (rule : Rule) (setting : Setting) : Bool :=
  match rule.settingKind, setting with
  | .limit, .on => false
  | .limit, _ => true
  | _, .limit _ => false
  | _, _ => true

theorem Rule.accept_null (rule : Rule) : rule.accept .null = .ok .off := by
  unfold accept
  cases rule.settingKind <;> rfl

theorem Rule.takes_of_accept {rule : Rule} {value : Value} {setting : Setting} (h : rule.accept value = .ok setting) :
    rule.takes setting = true := by
  unfold accept at h
  unfold takes
  cases kind : rule.settingKind with
  | switch =>
    rw [kind] at h
    cases value with
    | null => cases h; rfl
    | bool b => cases b <;> cases h <;> rfl
    | _ => cases h
  | style style =>
    rw [kind] at h
    cases value with
    | null => cases h; rfl
    | bool b => cases b <;> cases h; rfl
    | str s =>
      dsimp only at h
      split at h <;> cases h
      rfl
    | _ => cases h
  | limit =>
    rw [kind] at h
    cases value with
    | null => cases h; rfl
    | bool b => cases b <;> cases h; rfl
    | int n =>
      dsimp only at h
      split at h <;> cases h
      rfl
    | _ => cases h

/-- The setting that a configuration keeps of what was read for a rule. -/
def Rule.kept (rule : Rule) (setting : Setting) : Setting :=
  match rule.settingKind with
  | .limit => .ofLimit setting.limit?
  | _ => .ofSwitch setting.isOn

theorem Rule.kept_of_takes {rule : Rule} {setting : Setting} (h : rule.takes setting = true) :
    rule.kept setting = setting := by
  unfold takes at h
  unfold kept
  cases kind : rule.settingKind <;> rw [kind] at h <;> cases setting <;> first | rfl | cases h

theorem Rule.takes_ofSwitch {rule : Rule} (h : rule ≠ .maxLineLength) (on : Bool) :
    rule.takes (.ofSwitch on) = true := by
  cases rule <;> cases on <;> first | rfl | exact absurd rfl h

theorem Rule.takes_ofLimit (limit : Option LineLimit) : Rule.maxLineLength.takes (.ofLimit limit) = true := by
  cases limit <;> rfl

theorem RuleConfiguration.takes_setting {rules : RuleConfiguration} {category : Category} {setting : Rule → Setting}
    (h : rules.settings? category = some setting) {rule : Rule} (own : rule.category = category) :
    rule.takes (setting rule) = true := by
  subst own
  cases rule <;> obtain ⟨settings, -, rfl⟩ := Option.map_eq_some_iff.mp h <;>
    first | exact Rule.takes_ofSwitch (by decide) _ | exact Rule.takes_ofLimit _

/-! ### The rules of a category -/

namespace Category

variable {category : Category} {entries : List (Value × Value)}

theorem readEntries_cons_of_none {key value : Value} (unknown : Rule.ofKey? category key = none) :
    category.readEntries ((key, value) :: entries) = category.readEntries entries := by
  rw [readEntries, unknown]

theorem readEntries_cons_of_some {key value : Value} {rule : Rule} (known : Rule.ofKey? category key = some rule)
    {settings : List (Rule × Setting)} :
    category.readEntries ((key, value) :: entries) = .ok settings ↔
      ∃ setting others, rule.accept value = .ok setting ∧ category.readEntries entries = .ok others ∧
        settings = (rule, setting) :: others := by
  rw [readEntries, known]
  dsimp only
  cases rule.accept value with
  | error e => exact ⟨nofun, fun ⟨_, _, h, _⟩ => nomatch h⟩
  | ok setting =>
    cases category.readEntries entries with
    | error e => exact ⟨nofun, fun ⟨_, _, _, h, _⟩ => nomatch h⟩
    | ok others =>
      refine ⟨fun h => ⟨setting, others, rfl, rfl, (Except.ok.inj h).symm⟩, ?_⟩
      rintro ⟨_, _, ⟨⟩, ⟨⟩, rfl⟩
      rfl

/-- What is read for a rule is what the rule accepts of the value under its key. -/
theorem accept_lookup_of_readEntries {settings : List (Rule × Setting)} (h : category.readEntries entries = .ok settings)
    {rule : Rule} (own : rule.category = category) :
    rule.accept (lookup rule.key entries) = .ok (settingOf settings rule) := by
  induction entries generalizing settings with
  | nil =>
    obtain rfl := Except.ok.inj h
    exact rule.accept_null
  | cons entry rest ih =>
    obtain ⟨key, value⟩ := entry
    cases known : Rule.ofKey? category key with
    | none =>
      rw [readEntries_cons_of_none known] at h
      rw [Value.lookup_cons_of_ne (Rule.key_ne_of_unknown known own), ih h]
    | some found =>
      obtain ⟨setting, others, accepted, read, rfl⟩ := (readEntries_cons_of_some known).mp h
      obtain ⟨-, rfl⟩ := Rule.ofKey?_eq_some_iff.mp known
      by_cases same : found = rule
      · subst same
        rw [Value.lookup_cons_self, accepted]
        simp [settingOf]
      · rw [Value.lookup_cons_of_ne fun keys => same (Rule.str_key_injective keys), ih read]
        simp [settingOf, same]

theorem exists_readEntries (h : ∀ entry ∈ entries, ∀ rule, Rule.ofKey? category entry.1 = some rule →
    ∃ setting, rule.accept entry.2 = .ok setting) : ∃ settings, category.readEntries entries = .ok settings := by
  induction entries with
  | nil => exact ⟨[], rfl⟩
  | cons entry rest ih =>
    obtain ⟨others, read⟩ := ih fun other ho => h other (List.mem_cons_of_mem entry ho)
    cases known : Rule.ofKey? category entry.1 with
    | none => exact ⟨others, (readEntries_cons_of_none known).trans read⟩
    | some rule =>
      obtain ⟨setting, accepted⟩ := h entry List.mem_cons_self rule known
      exact ⟨_, (readEntries_cons_of_some known).mpr ⟨setting, others, accepted, read, rfl⟩⟩

/-- What a value tells about a category: that it is off, or the settings of its rules. A rule without a key is as one
    that is null. -/
def Tells (category : Category) (value : Value) : Option (Rule → Setting) → Prop
  | none => value = .null ∨ value = .bool false
  | some setting => ∃ entries, value = .mapping entries ∧
      ∀ rule : Rule, rule.category = category → rule.accept (lookup rule.key entries) = .ok (setting rule)

theorem tells_of_read {value : Value} {settings : Option (List (Rule × Setting))}
    (h : category.read value = .ok settings) : category.Tells value (settings.map settingOf) := by
  unfold read at h
  split at h
  · obtain rfl := Except.ok.inj h
    exact Or.inl rfl
  · obtain rfl := Except.ok.inj h
    exact Or.inr rfl
  · rename_i entries
    cases read : category.readEntries entries with
    | error e => rw [read] at h; cases h
    | ok settings =>
      rw [read] at h
      obtain rfl := Except.ok.inj h
      exact ⟨entries, rfl, fun rule => accept_lookup_of_readEntries read⟩
  · cases h

/-- A value tells one thing about the rules of a category. -/
theorem Tells.unique {value : Value} {first second : Option (Rule → Setting)} (h : category.Tells value first)
    (h' : category.Tells value second) :
    first = none ∧ second = none ∨ ∃ one two, first = some one ∧ second = some two ∧
      ∀ rule : Rule, rule.category = category → one rule = two rule := by
  cases first with
  | none =>
    cases second with
    | none => exact Or.inl ⟨rfl, rfl⟩
    | some two =>
      obtain ⟨_, rfl, -⟩ := h'
      rcases h with h | h <;> cases h
  | some one =>
    obtain ⟨entries, rfl, accepted⟩ := h
    cases second with
    | none => rcases h' with h' | h' <;> cases h'
    | some two =>
      obtain ⟨_, same, accepted'⟩ := h'
      obtain rfl := Value.mapping.inj same
      exact Or.inr ⟨one, two, rfl, rfl, fun rule own =>
        Except.ok.inj ((accepted rule own).symm.trans (accepted' rule own))⟩

end Category

/-! ### The categories -/

namespace RuleConfiguration

variable {entries : List (Value × Value)} {rules : RuleConfiguration}

theorem readCategories_cons_of_none {key value : Value} (unknown : Category.ofKey? key = none) :
    readCategories ((key, value) :: entries) = readCategories entries := by
  rw [readCategories, unknown]

theorem readCategories_cons_of_some {key value : Value} {category : Category}
    (known : Category.ofKey? key = some category) {categories : List (Category × List (Rule × Setting))} :
    readCategories ((key, value) :: entries) = .ok categories ↔
      ∃ settings others, category.read value = .ok settings ∧ readCategories entries = .ok others ∧
        categories = (settings.map (category, ·)).toList ++ others := by
  rw [readCategories, known]
  dsimp only
  cases category.read value with
  | error e => exact ⟨nofun, fun ⟨_, _, h, _⟩ => nomatch h⟩
  | ok settings =>
    cases readCategories entries with
    | error e => exact ⟨nofun, fun ⟨_, _, _, h, _⟩ => nomatch h⟩
    | ok others =>
      constructor
      · intro h
        refine ⟨settings, others, rfl, rfl, ?_⟩
        cases settings <;> exact (Except.ok.inj h).symm
      · rintro ⟨_, _, ⟨⟩, ⟨⟩, rfl⟩
        cases settings <;> rfl

/-- What is read for a category is what is read of the value under its key. -/
theorem read_lookup_of_readCategories {categories : List (Category × List (Rule × Setting))}
    (h : readCategories entries = .ok categories) {category : Category}
    (once : entries.countP (hasKey category.key) ≤ 1) :
    category.read (lookup category.key entries) = .ok ((categories.find? (·.1 = category)).map (·.2)) := by
  induction entries generalizing categories with
  | nil =>
    obtain rfl := Except.ok.inj h
    rfl
  | cons entry rest ih =>
    obtain ⟨key, value⟩ := entry
    by_cases same : key = .str category.key
    · -- No later entry is about the category.
      subst same
      rw [List.countP_cons_of_pos (Value.hasKey_iff.mpr rfl)] at once
      have later : rest.countP (hasKey category.key) = 0 := by omega
      obtain ⟨settings, others, read, readRest, rfl⟩ :=
        (readCategories_cons_of_some (Category.ofKey?_eq_some_iff.mpr rfl)).mp h
      have off := ih readRest (by omega)
      rw [Value.lookup_eq_null_of_countP_eq_zero later] at off
      have off : (others.find? (·.1 = category)).map (·.2) = none := (Except.ok.inj off).symm
      rw [Value.lookup_cons_self, read, List.find?_append]
      cases settings with
      | none => simpa using off.symm
      | some settings => simp
    · rw [List.countP_cons_of_neg fun has => same (Value.hasKey_iff.mp has)] at once
      rw [Value.lookup_cons_of_ne same]
      cases known : Category.ofKey? key with
      | none => exact ih (readCategories_cons_of_none known ▸ h) once
      | some found =>
        obtain ⟨settings, others, -, readRest, rfl⟩ := (readCategories_cons_of_some known).mp h
        have other : found ≠ category := fun h => same (h ▸ Category.ofKey?_eq_some_iff.mp known)
        rw [ih readRest once, List.find?_append]
        cases settings <;> simp [other]

theorem exists_readCategories (h : ∀ entry ∈ entries, ∀ category, Category.ofKey? entry.1 = some category →
    ∃ settings, category.read entry.2 = .ok settings) : ∃ categories, readCategories entries = .ok categories := by
  induction entries with
  | nil => exact ⟨[], rfl⟩
  | cons entry rest ih =>
    obtain ⟨others, readRest⟩ := ih fun other ho => h other (List.mem_cons_of_mem entry ho)
    cases known : Category.ofKey? entry.1 with
    | none => exact ⟨others, (readCategories_cons_of_none known).trans readRest⟩
    | some category =>
      obtain ⟨settings, read⟩ := h entry List.mem_cons_self category known
      exact ⟨_, (readCategories_cons_of_some known).mpr ⟨settings, others, read, readRest, rfl⟩⟩

theorem settings?_ofSettings (categories : List (Category × List (Rule × Setting))) (category : Category) :
    (ofSettings categories).settings? category = (categories.find? (·.1 = category)).map fun found rule =>
      if rule.category = category then rule.kept (settingOf found.2 rule) else .off := by
  cases category <;> simp only [settings?, ofSettings, Option.map_map] <;>
    refine congrArg (Option.map · _) (funext fun found => funext fun rule => ?_) <;> cases rule <;> rfl

theorem ofValue_mapping_eq_ok_iff :
    ofValue (.mapping entries) = .ok rules ↔
      ∃ categories, readCategories entries = .ok categories ∧ ofSettings categories = rules := by
  rw [ofValue]
  cases readCategories entries with
  | error e => exact ⟨nofun, fun ⟨_, h, _⟩ => nomatch h⟩
  | ok categories =>
    refine ⟨fun h => ⟨categories, rfl, Except.ok.inj h⟩, ?_⟩
    rintro ⟨_, ⟨⟩, rfl⟩
    rfl

/-- No key of a category comes twice, nor that of a rule in the mapping of its category. The rules in a
    document are such, whatever document is read (`wellKeyed_of_readDocument`). -/
structure WellKeyed (entries : List (Value × Value)) : Prop where
  categories : ∀ category : Category, entries.countP (hasKey category.key) ≤ 1
  rules : ∀ (category : Category) (inner : List (Value × Value)), (.str category.key, .mapping inner) ∈ entries →
    ∀ rule : Rule, rule.category = category → inner.countP (hasKey rule.key) ≤ 1

theorem tells_of_ofValue (h : ofValue (.mapping entries) = .ok rules) {category : Category}
    (once : entries.countP (hasKey category.key) ≤ 1) :
    category.Tells (lookup category.key entries) (rules.settings? category) := by
  obtain ⟨categories, read, rfl⟩ := ofValue_mapping_eq_ok_iff.mp h
  have told := Category.tells_of_read (read_lookup_of_readCategories read once)
  rw [settings?_ofSettings]
  cases found : categories.find? (·.1 = category) with
  | none => simpa [found] using told
  | some settings =>
    rw [found] at told
    obtain ⟨inner, value, accepted⟩ := told
    refine ⟨inner, value, fun rule own => ?_⟩
    have accepts := accepted rule own
    dsimp only at accepts ⊢
    rw [if_pos own, Rule.kept_of_takes (Rule.takes_of_accept accepts), accepts]

theorem exists_ofValue (keyed : WellKeyed entries) (h : ∀ category : Category, ∃ settings,
    category.Tells (lookup category.key entries) settings) : ∃ rules, ofValue (.mapping entries) = .ok rules := by
  obtain ⟨categories, read⟩ : ∃ categories, readCategories entries = .ok categories := by
    refine exists_readCategories fun ⟨key, value⟩ he category known => ?_
    obtain rfl := Category.ofKey?_eq_some_iff.mp known
    obtain ⟨settings, told⟩ := h category
    rw [Value.lookup_eq_of_mem (keyed.categories category) he] at told
    cases settings with
    | none => rcases told with rfl | rfl <;> exact ⟨none, rfl⟩
    | some setting =>
      obtain ⟨inner, rfl, accepted⟩ := told
      obtain ⟨settings, read⟩ : ∃ settings, category.readEntries inner = .ok settings := by
        refine Category.exists_readEntries fun ⟨key, value⟩ hi rule known => ?_
        obtain ⟨own, rfl⟩ := Rule.ofKey?_eq_some_iff.mp known
        refine ⟨setting rule, ?_⟩
        rw [← accepted rule own, Value.lookup_eq_of_mem (keyed.rules category inner he rule own) hi]
      exact ⟨some settings, by rw [Category.read, read]; rfl⟩
  exact ⟨ofSettings categories, ofValue_mapping_eq_ok_iff.mpr ⟨categories, read, rfl⟩⟩

/-- A mapping makes a configuration if it tells of each category what the configuration has for it. -/
theorem ofValue_eq_ok_iff (keyed : WellKeyed entries) :
    ofValue (.mapping entries) = .ok rules ↔
      ∀ category : Category, category.Tells (lookup category.key entries) (rules.settings? category) := by
  refine ⟨fun h category => tells_of_ofValue h (keyed.categories category), fun told => ?_⟩
  obtain ⟨made, h⟩ := exists_ofValue keyed fun category => ⟨_, told category⟩
  have same : made = rules := by
    refine settings?_injective fun category => ?_
    rcases (tells_of_ofValue h (keyed.categories category)).unique (told category) with
      ⟨off, off'⟩ | ⟨one, two, on, on', agree⟩
    · rw [off, off']
    · rw [on, on']
      refine congrArg some (funext fun rule => ?_)
      by_cases own : rule.category = category
      · exact agree rule own
      · rw [setting_eq_off on own, setting_eq_off on' own]
  rw [h, same]

end RuleConfiguration

end SolidityLint

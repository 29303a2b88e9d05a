import SolidityLint.Config.Rules

/-! The settings of a configuration, seen rule by rule and not field by field. A category that is on has a setting for
    each of its rules. -/

namespace SolidityLint

/-- The rules of a category. -/
def Category.rules (category : Category) : List Rule :=
  Rule.all.filter (·.category = category)

/-- The setting of a rule that is on or off. -/
def Setting.ofSwitch (on : Bool) : Setting :=
  if on then .on else .off

def Setting.ofLimit (limit : Option LineLimit) : Setting :=
  match limit with
  | none => .off
  | some limit => .limit limit

@[simp] theorem Setting.isOn_ofSwitch (on : Bool) : (Setting.ofSwitch on).isOn = on := by
  cases on <;> rfl

@[simp] theorem Setting.isOn_ofLimit (limit : Option LineLimit) : (Setting.ofLimit limit).isOn = limit.isSome := by
  cases limit <;> rfl

@[simp] theorem Setting.limit?_ofLimit (limit : Option LineLimit) : (Setting.ofLimit limit).limit? = limit := by
  cases limit <;> rfl

theorem Setting.ofSwitch_injective {a b : Bool} (h : ofSwitch a = ofSwitch b) : a = b := by
  simpa using congrArg isOn h

theorem Setting.ofLimit_injective {a b : Option LineLimit} (h : ofLimit a = ofLimit b) : a = b := by
  simpa using congrArg limit? h

def HeaderRules.setting (rules : HeaderRules) : Rule → Setting
  | .spdxLicense => .ofSwitch rules.spdxLicense
  | .spdxAtTop => .ofSwitch rules.spdxAtTop
  | .pragmaAfterLicense => .ofSwitch rules.pragmaAfterLicense
  | _ => .off

def ImportRules.setting (rules : ImportRules) : Rule → Setting
  | .namedOnly => .ofSwitch rules.namedOnly
  | .alphabetical => .ofSwitch rules.alphabetical
  | _ => .off

def NamingRules.setting (rules : NamingRules) : Rule → Setting
  | .contracts => .ofSwitch rules.contracts
  | .functions => .ofSwitch rules.functions
  | .privateInternalFunctions => .ofSwitch rules.privateInternalFunctions
  | .functionArguments => .ofSwitch rules.functionArguments
  | .events => .ofSwitch rules.events
  | .eventsPastTense => .ofSwitch rules.eventsPastTense
  | .constants => .ofSwitch rules.constants
  | _ => .off

def LayoutRules.setting (rules : LayoutRules) : Rule → Setting
  | .maxLineLength => .ofLimit rules.maxLineLength
  | .noTabs => .ofSwitch rules.noTabs
  | .noTrailingWhitespace => .ofSwitch rules.noTrailingWhitespace
  | _ => .off

namespace RuleConfiguration

/-- The settings of a category, or nothing if it is off. -/
def settings? (rules : RuleConfiguration) : Category → Option (Rule → Setting)
  | .header => rules.header.map HeaderRules.setting
  | .imports => rules.imports.map ImportRules.setting
  | .naming => rules.naming.map NamingRules.setting
  | .layout => rules.layout.map LayoutRules.setting

/-- Whether a rule is on: its category is, and the rule in it. -/
def enables (rules : RuleConfiguration) (rule : Rule) : Bool :=
  (rules.settings? rule.category).any fun setting => (setting rule).isOn

/-- In a category that is on, a rule is on where its setting is. -/
theorem enables_of_settings? {rules : RuleConfiguration} {category : Category} {setting : Rule → Setting}
    (h : rules.settings? category = some setting) {rule : Rule} (own : rule.category = category) :
    rules.enables rule = (setting rule).isOn := by
  rw [enables, own, h, Option.any_some]

/-- In a category that is off, no rule is on. -/
theorem enables_of_settings?_eq_none {rules : RuleConfiguration} {category : Category}
    (h : rules.settings? category = none) {rule : Rule} (own : rule.category = category) :
    rules.enables rule = false := by
  rw [enables, own, h, Option.any_none]

theorem setting_eq_off {rules : RuleConfiguration} {category : Category} {setting : Rule → Setting}
    (h : rules.settings? category = some setting) {rule : Rule} (other : rule.category ≠ category) :
    setting rule = .off := by
  cases category <;> obtain ⟨settings, -, rfl⟩ := Option.map_eq_some_iff.mp h <;> cases rule <;>
    first | rfl | exact absurd rfl other

end RuleConfiguration

/-! ### A configuration is known from its settings -/

theorem HeaderRules.setting_injective {a b : HeaderRules} (h : a.setting = b.setting) : a = b := by
  obtain ⟨_, _, _⟩ := a
  obtain ⟨_, _, _⟩ := b
  exact (HeaderRules.mk.injEq ..).mpr ⟨Setting.ofSwitch_injective (congrFun h .spdxLicense),
    Setting.ofSwitch_injective (congrFun h .spdxAtTop), Setting.ofSwitch_injective (congrFun h .pragmaAfterLicense)⟩

theorem ImportRules.setting_injective {a b : ImportRules} (h : a.setting = b.setting) : a = b := by
  obtain ⟨_, _⟩ := a
  obtain ⟨_, _⟩ := b
  exact (ImportRules.mk.injEq ..).mpr ⟨Setting.ofSwitch_injective (congrFun h .namedOnly),
    Setting.ofSwitch_injective (congrFun h .alphabetical)⟩

theorem NamingRules.setting_injective {a b : NamingRules} (h : a.setting = b.setting) : a = b := by
  obtain ⟨_, _, _, _, _, _, _⟩ := a
  obtain ⟨_, _, _, _, _, _, _⟩ := b
  have same (rule : Rule) := congrFun h rule
  exact (NamingRules.mk.injEq ..).mpr ⟨Setting.ofSwitch_injective (same .contracts),
    Setting.ofSwitch_injective (same .functions), Setting.ofSwitch_injective (same .privateInternalFunctions),
    Setting.ofSwitch_injective (same .functionArguments), Setting.ofSwitch_injective (same .events),
    Setting.ofSwitch_injective (same .eventsPastTense), Setting.ofSwitch_injective (same .constants)⟩

theorem LayoutRules.setting_injective {a b : LayoutRules} (h : a.setting = b.setting) : a = b := by
  obtain ⟨_, _, _⟩ := a
  obtain ⟨_, _, _⟩ := b
  exact (LayoutRules.mk.injEq ..).mpr ⟨Setting.ofLimit_injective (congrFun h .maxLineLength),
    Setting.ofSwitch_injective (congrFun h .noTabs), Setting.ofSwitch_injective (congrFun h .noTrailingWhitespace)⟩

theorem RuleConfiguration.settings?_injective {a b : RuleConfiguration}
    (h : ∀ category, a.settings? category = b.settings? category) : a = b := by
  have header := Option.map_injective (fun _ _ => HeaderRules.setting_injective) (h .header)
  have imports := Option.map_injective (fun _ _ => ImportRules.setting_injective) (h .imports)
  have naming := Option.map_injective (fun _ _ => NamingRules.setting_injective) (h .naming)
  have layout := Option.map_injective (fun _ _ => LayoutRules.setting_injective) (h .layout)
  exact (RuleConfiguration.mk.injEq ..).mpr ⟨header, imports, naming, layout⟩

end SolidityLint

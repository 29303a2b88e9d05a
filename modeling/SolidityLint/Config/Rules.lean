import SolidityLint.Config.Error

/-! Which rules are on. A category that is off checks nothing; a category that is on has a setting for each of its
    rules, and a rule that its mapping does not name is off. Unknown categories and rules are passed over. -/

namespace SolidityLint

/-- The longest line that is allowed. -/
structure LineLimit where
  width : Nat
  width_pos : 0 < width
  deriving DecidableEq

/-- The rules on licence line and pragma. -/
structure HeaderRules where
  spdxLicense : Bool := false
  spdxAtTop : Bool := false
  pragmaAfterLicense : Bool := false
  deriving DecidableEq

/-- The rules on import statements. -/
structure ImportRules where
  namedOnly : Bool := false
  alphabetical : Bool := false
  deriving DecidableEq

/-- The rules on names; each casing rule asks for the one style that it has. -/
structure NamingRules where
  contracts : Bool := false
  functions : Bool := false
  privateInternalFunctions : Bool := false
  functionArguments : Bool := false
  events : Bool := false
  eventsPastTense : Bool := false
  constants : Bool := false
  deriving DecidableEq

/-- The rules on single lines. -/
structure LayoutRules where
  maxLineLength : Option LineLimit := none
  noTabs : Bool := false
  noTrailingWhitespace : Bool := false
  deriving DecidableEq

/-- The settings of all rules, category by category. -/
structure RuleConfiguration where
  header : Option HeaderRules := none
  imports : Option ImportRules := none
  naming : Option NamingRules := none
  layout : Option LayoutRules := none
  deriving DecidableEq

/-- The setting of a single rule. -/
inductive Setting where
  | off
  | on
  | limit (limit : LineLimit)
  deriving DecidableEq

namespace Setting

def isOn : Setting → Bool
  | .off => false
  | _ => true

def limit? : Setting → Option LineLimit
  | .limit l => some l
  | _ => none

end Setting

/-- The setting that a value stands for, if the rule accepts it. -/
def Rule.accept (rule : Rule) (value : Value) : Except ConfigError Setting :=
  match rule.settingKind, value with
  | .switch, .null => .ok .off
  | .switch, .bool b => .ok (if b then .on else .off)
  | .switch, value => .error (.notSwitch rule value)
  | .style _, .null => .ok .off
  | .style _, .bool false => .ok .off
  | .style style, .str s => if s = style.name then .ok .on else .error (.notStyle rule style (.str s))
  | .style style, value => .error (.notStyle rule style value)
  | .limit, .null => .ok .off
  | .limit, .bool false => .ok .off
  | .limit, .int n =>
    if h : 0 < n.toNat then .ok (.limit ⟨n.toNat, h⟩) else .error (.notLimit rule (.int n))
  | .limit, value => .error (.notLimit rule value)

/-- The settings that the entries of a category make, in order; the first entry that its rule does not accept is
    the fault. -/
def Category.readEntries (category : Category) : List (Value × Value) → Except ConfigError (List (Rule × Setting))
  | [] => .ok []
  | (key, value) :: rest =>
    match Rule.ofKey? category key with
    | none => category.readEntries rest
    | some rule => do
      let setting ← rule.accept value
      let settings ← category.readEntries rest
      return (rule, setting) :: settings

/-- The settings of a category; none if it is null or false. -/
def Category.read (category : Category) : Value → Except ConfigError (Option (List (Rule × Setting)))
  | .null => .ok none
  | .bool false => .ok none
  | .mapping entries => (category.readEntries entries).map some
  | _ => .error (.categoryNotMapping category)

/-- The setting of a rule among those that were read; a rule without one is off. -/
def settingOf (settings : List (Rule × Setting)) (rule : Rule) : Setting :=
  ((settings.find? (·.1 = rule)).map (·.2)).getD .off

namespace RuleConfiguration

/-- All rules on, and lines of at most 120 characters. -/
def builtin : RuleConfiguration where
  header := some { spdxLicense := true, spdxAtTop := true, pragmaAfterLicense := true }
  imports := some { namedOnly := true, alphabetical := true }
  naming := some { contracts := true, functions := true, privateInternalFunctions := true, functionArguments := true,
                   events := true, eventsPastTense := true, constants := true }
  layout := some { maxLineLength := some ⟨120, by decide⟩, noTabs := true, noTrailingWhitespace := true }

/-- The settings of the categories that are on, in the order of the entries. -/
def readCategories : List (Value × Value) → Except ConfigError (List (Category × List (Rule × Setting)))
  | [] => .ok []
  | (key, value) :: rest =>
    match Category.ofKey? key with
    | none => readCategories rest
    | some category => do
      let settings ← category.read value
      let others ← readCategories rest
      return match settings with
        | none => others
        | some settings => (category, settings) :: others

/-- The configuration with the given settings; a category without settings is off. -/
def ofSettings (categories : List (Category × List (Rule × Setting))) : RuleConfiguration :=
  let settings? (category : Category) : Option (Rule → Setting) :=
    (categories.find? (·.1 = category)).map fun found => settingOf found.2
  { header := (settings? .header).map fun s =>
      { spdxLicense := (s .spdxLicense).isOn, spdxAtTop := (s .spdxAtTop).isOn,
        pragmaAfterLicense := (s .pragmaAfterLicense).isOn }
    imports := (settings? .imports).map fun s =>
      { namedOnly := (s .namedOnly).isOn, alphabetical := (s .alphabetical).isOn }
    naming := (settings? .naming).map fun s =>
      { contracts := (s .contracts).isOn, functions := (s .functions).isOn,
        privateInternalFunctions := (s .privateInternalFunctions).isOn,
        functionArguments := (s .functionArguments).isOn, events := (s .events).isOn,
        eventsPastTense := (s .eventsPastTense).isOn, constants := (s .constants).isOn }
    layout := (settings? .layout).map fun s =>
      { maxLineLength := (s .maxLineLength).limit?, noTabs := (s .noTabs).isOn,
        noTrailingWhitespace := (s .noTrailingWhitespace).isOn } }

def ofValue : Value → Except ConfigError RuleConfiguration
  | .mapping entries => ((readCategories entries).map ofSettings).mapError ConfigError.reported
  | _ => .error .rulesNotMapping

end RuleConfiguration

end SolidityLint

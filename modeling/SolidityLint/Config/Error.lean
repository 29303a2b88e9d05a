import SolidityLint.Rule

/-! What can be wrong with a configuration, and how it is said. -/

namespace SolidityLint

/-- A fault of a configuration document. -/
inductive ConfigError where
  /-- No document was found at the path. -/
  | notFound (path : RawText)
  /-- The document at the path is no mapping. -/
  | notMapping (path : RawText)
  | rulesNotMapping
  | categoryNotMapping (category : Category)
  /-- A switch has a value that is neither null nor a truth value. -/
  | notSwitch (rule : Rule) (value : Value)
  /-- A style rule has a value other than its own style. -/
  | notStyle (rule : Rule) (style : NameStyle) (value : Value)
  /-- A limit has a value that is no positive whole number. -/
  | notLimit (rule : Rule) (value : Value)
  | contractsInvalid
  | sourceDirInvalid
  | severityNotMapping
  | unknownSeverity (key value : Value)
  /-- A number has more digits than can be shown. -/
  | numberTooLong

namespace ConfigError

/-- A value as messages show it. -/
def shown (value : Value) : String :=
  String.ofList value.display

/-- What is said of a number with more digits than can be shown. -/
def numberTooLongMessage : String :=
  "Exceeds the limit (4300 digits) for integer string conversion; use sys.set_int_max_str_digits() to increase " ++
    "the limit"

def message : ConfigError → RawText
  | .notFound path => "Config file not found: " ++ path
  | .notMapping path => "Config at " ++ path ++ " is not a mapping"
  | .rulesNotMapping => "'rules' must be a mapping of category -> rule settings"
  | .categoryNotMapping category => "Rule category '" ++ category.key ++ "' must be a mapping"
  | .notSwitch rule value => "Rule '" ++ rule.id ++ "' expects true/false, got " ++ shown value
  | .notStyle rule style value =>
    "Rule '" ++ rule.id ++ "' supports only '" ++ style.name ++ "', got " ++ shown value
  | .notLimit rule value => "Rule '" ++ rule.id ++ "' expects a positive integer, got " ++ shown value
  | .contractsInvalid => "'contracts' must be a non-empty list of names or ['*']"
  | .sourceDirInvalid => "'source_dir' must be a non-empty string"
  | .severityNotMapping => "'severity' must be a mapping of rule id -> severity"
  | .unknownSeverity key value =>
    "Unknown severity " ++ shown value ++ " for rule '" ++ key.plain ++ "'"
  | .numberTooLong => numberTooLongMessage

/-- The values that the text of a fault shows. -/
def values : ConfigError → List Value
  | .notSwitch _ value | .notStyle _ _ value | .notLimit _ value => [value]
  | .unknownSeverity key value => [key, value]
  | _ => []

/-- The fault that is reported: one whose text cannot be shown gives way to what keeps it from being shown. -/
def reported (e : ConfigError) : ConfigError :=
  if Value.areShowable e.values then e else .numberTooLong

end ConfigError

end SolidityLint

import SolidityLint.Config.Log
import SolidityLint.Config.Severities
import SolidityLint.Text.Blank

/-! The configuration of a run: rules, severities, the names of the contracts to check, and the directory that holds
    them. What a document does not set is taken from the defaults. -/

namespace SolidityLint

/-- The configuration of a run. -/
structure CheckerConfig where
  rules : RuleConfiguration := .builtin
  severities : SeverityMap := {}
  contractNames : List RawText := ["*"]
  sourceDir : RawText := "src"

namespace CheckerConfig

/-- The rules that a document sets, or all rules if it does not speak of them. An empty setting switches all
    categories off. -/
def readRules (entries : List (Value × Value)) : Except ConfigError RuleConfiguration :=
  match Value.entry? "rules" entries with
  | none => .ok .builtin
  | some value => RuleConfiguration.ofValue (if value.isEmpty then .mapping [] else value)

/-- The values that name the contracts: a single text is a single name, and a list may not be empty. -/
def readContracts (entries : List (Value × Value)) : Except ConfigError (List Value) :=
  match Value.entry? "contracts" entries with
  | none => .ok [.str "*"]
  | some (.str name) => .ok [.str name]
  | some (.list (name :: names)) => .ok (name :: names)
  | some _ => .error .contractsInvalid

/-- The names of the contracts, each as its value reads. -/
def contractNamesOf (values : List Value) : Except ConfigError (List RawText) :=
  if Value.areShowable values then .ok (values.map Value.plain) else .error .numberTooLong

/-- The source directory: a text that is not blank. -/
def readSourceDir (entries : List (Value × Value)) : Except ConfigError RawText :=
  match Value.entry? "source_dir" entries with
  | none => .ok "src"
  | some (.str directory) =>
    if directory.isBlank then .error .sourceDirInvalid else .ok directory
  | some _ => .error .sourceDirInvalid

/-- The severities that a document sets. -/
def readSeverities (entries : List (Value × Value)) : Except ConfigError SeverityMap :=
  SeverityMap.ofValue ((Value.entry? "severity" entries).getD .null)

/-- What a document sets before its severities are looked at. -/
def readSettings (entries : List (Value × Value)) :
    Except ConfigError (RuleConfiguration × List Value × RawText) := do
  let rules ← readRules entries
  let contracts ← readContracts entries
  let sourceDir ← readSourceDir entries
  return (rules, contracts, sourceDir)

/-- The configuration that the entries of a document describe. Of several faults the one reported is that of the
    rules, then of the contracts, of the source directory, of the severities, and of the names. -/
def ofEntries (entries : List (Value × Value)) : Except ConfigError CheckerConfig := do
  let (rules, contracts, sourceDir) ← readSettings entries
  let severities ← readSeverities entries
  let contractNames ← contractNamesOf contracts
  return { rules, severities, contractNames, sourceDir }

/-- The configuration that a document describes. A document without content counts as not found. -/
def ofValue (path : RawText) : Value → Except ConfigError CheckerConfig
  | .null => .error (.notFound path)
  | .mapping entries => ofEntries entries
  | _ => .error (.notMapping path)

/-- The messages about the reading of a document. The last one says that all but the severities was read. -/
def notices (path : RawText) : Value → List Notice
  | .mapping entries =>
    (match Value.entry? "rules" entries with
      | some value => RuleConfiguration.notices value
      | none => []) ++
    match readSettings entries with
    | .ok _ => [.configurationLoaded path]
    | .error _ => []
  | _ => []

end CheckerConfig

end SolidityLint

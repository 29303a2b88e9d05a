import SolidityLint.Config.Error

/-! Severities of rules: overrides from the configuration, then the severity that the rule has by itself, and
    `error` for what is no rule. -/

namespace SolidityLint

/-- The severities that a configuration sets, by rule identifier. -/
structure SeverityMap where
  overrides : List (RawText × Severity) := []

namespace SeverityMap

/-- Sets the severity of an identifier: one that is there keeps its place, a new one goes to the end. -/
def insert (overrides : List (RawText × Severity)) (id : RawText) (severity : Severity) : List (RawText × Severity) :=
  if overrides.any (·.1 = id) then
    overrides.map fun entry => if entry.1 = id then (id, severity) else entry
  else overrides ++ [(id, severity)]

/-- The identifiers and severities of the entries, in order; the first value that names no severity is the
    fault, or the first key that cannot be shown. -/
def readEntries : List (Value × Value) → Except ConfigError (List (RawText × Severity))
  | [] => .ok []
  | (key, value) :: rest =>
    match Severity.ofValue? value with
    | none => .error (.reported (.unknownSeverity key value))
    | some severity =>
      if key.isShowable then (readEntries rest).map fun entries => (key.plain, severity) :: entries
      else .error .numberTooLong

/-- The overrides that a value describes; null describes none. -/
def ofValue : Value → Except ConfigError SeverityMap
  | .null => .ok {}
  | .mapping entries =>
    (readEntries entries).map fun read => ⟨read.foldl (fun done entry => insert done entry.1 entry.2) []⟩
  | _ => .error .severityNotMapping

/-- The severity of findings of a rule, given by its identifier. -/
def resolve (severities : SeverityMap) (id : String) : Severity :=
  match severities.overrides.find? (·.1 = RawText.ofString id) with
  | some entry => entry.2
  | none => ((Rule.ofId? id).map Rule.severity).getD .error

end SeverityMap

end SolidityLint

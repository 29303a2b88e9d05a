import SolidityLint.Json.Basic
import SolidityLint.Severity

/-! Findings and their counts. -/

namespace SolidityLint

/-- A violation of a rule in a file, with its severity. -/
structure Finding where
  path : RawText
  line : Int
  rule : String
  code : String
  message : String
  severity : Severity
  deriving DecidableEq

def Finding.toJson (f : Finding) : Json :=
  .obj [("path", .str f.path), ("line", .int f.line), ("rule", .str f.rule), ("code", .str f.code),
    ("message", .str f.message), ("severity", .str f.severity.word)]

/-- The number of files, and the numbers of findings of each severity. -/
structure Summary where
  files : Nat
  error : Nat
  warning : Nat
  info : Nat
  deriving DecidableEq

namespace Summary

def ofFindings (files : Nat) (findings : List Finding) : Summary :=
  let count (s : Severity) := findings.countP fun f => f.severity = s
  { files, error := count .error, warning := count .warning, info := count .info }

def count (summary : Summary) : Severity → Nat
  | .error => summary.error
  | .warning => summary.warning
  | .info => summary.info

/-- The number of all findings. -/
def total (summary : Summary) : Nat :=
  summary.error + summary.warning + summary.info

/-- The words for the severities with their numbers, in the order of reports. -/
def rows (summary : Summary) : List (String × Nat) :=
  Severity.all.map fun s => (s.word, summary.count s)

def toJson (summary : Summary) : Json :=
  .obj [("files", .int summary.files), ("error", .int summary.error), ("warning", .int summary.warning),
    ("info", .int summary.info)]

end Summary

end SolidityLint

import SolidityLint.Finding

/-! The result of a check: the files that were checked and the findings, both in the order in which they came. -/

namespace SolidityLint

/-- The result of a check. -/
structure CheckResult where
  files : List RawText := []
  findings : List Finding := []
  deriving DecidableEq

namespace CheckResult

def addFile (result : CheckResult) (path : RawText) : CheckResult :=
  { result with files := result.files ++ [path] }

def addFinding (result : CheckResult) (finding : Finding) : CheckResult :=
  { result with findings := result.findings ++ [finding] }

/-- Adds findings one after another. -/
def extend (result : CheckResult) (findings : List Finding) : CheckResult :=
  findings.foldl addFinding result

/-- The files of both results and the findings of both, those of the first in front. -/
def append (first second : CheckResult) : CheckResult :=
  ⟨first.files ++ second.files, first.findings ++ second.findings⟩

instance : Append CheckResult := ⟨append⟩

/-- The counts of files and findings. -/
def summary (result : CheckResult) : Summary :=
  .ofFindings result.files.length result.findings

/-- Whether a finding makes the check fail. -/
def hasBlocking (result : CheckResult) : Bool :=
  result.findings.any fun finding => finding.severity.isBlocking

/-- Whether the check succeeds. -/
def passed (result : CheckResult) : Bool :=
  !result.hasBlocking

/-- The exit code of a check: zero if it succeeds, one if not. -/
def exitCode (result : CheckResult) : Nat :=
  if result.hasBlocking then 1 else 0

/-! ### What an operation does to the two lists -/

@[simp] theorem files_addFile (result : CheckResult) (path : RawText) :
    (result.addFile path).files = result.files ++ [path] := rfl

@[simp] theorem findings_addFile (result : CheckResult) (path : RawText) :
    (result.addFile path).findings = result.findings := rfl

theorem extend_eq (result : CheckResult) (findings : List Finding) :
    result.extend findings = { result with findings := result.findings ++ findings } := by
  unfold extend
  induction findings generalizing result with
  | nil => simp
  | cons finding rest ih => simp [ih, addFinding]

/-! ### Groups -/

/-- Adds a finding to the group of its path, where the last one comes first; the first finding of a path starts a
    group at the end. -/
def addToGroup (groups : List (RawText × List Finding)) (finding : Finding) : List (RawText × List Finding) :=
  if groups.any (·.1 = finding.path) then
    groups.map fun group => if group.1 = finding.path then (group.1, finding :: group.2) else group
  else groups ++ [(finding.path, [finding])]

/-- The paths in order, each at its first place. -/
def distinct (paths : List RawText) : List RawText :=
  paths.foldl (fun done path => if done.contains path then done else done ++ [path]) []

/-- The findings of each path in their order. The groups come in the order of the files, then in that of the
    findings, and none is empty. -/
def groups (result : CheckResult) : List (RawText × List Finding) :=
  let start : List (RawText × List Finding) := (distinct result.files).map (·, [])
  ((result.findings.foldl addToGroup start).filter fun group => !group.2.isEmpty).map fun group =>
    (group.1, group.2.reverse)

def toJson (result : CheckResult) : Json :=
  .obj [("summary", result.summary.toJson), ("findings", .arr (result.findings.map Finding.toJson)),
    ("passed", .bool result.passed)]

end CheckResult

end SolidityLint

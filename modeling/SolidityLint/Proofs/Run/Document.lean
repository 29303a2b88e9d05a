import SolidityLint.Proofs.Json.Reading
import SolidityLint.Proofs.Run.Frame
import SolidityLint.Proofs.Value.Lookup

/-! The document of a result, which is read back. It holds whole numbers and texts, so a reader finds in its printed
    form the counts, the verdict and all findings. It can be printed unless one of its numbers has too many digits. A
    run puts out this printed form and no other, whether it writes it or prints it. -/

namespace SolidityLint

open CommandLine (Options)

/-! ### What a document tells -/

namespace Value

def text? : Value → Option RawText
  | .str s => some s
  | _ => none

def int? : Value → Option Int
  | .int n => some n
  | _ => none

def bool? : Value → Option Bool
  | .bool b => some b
  | _ => none

def items? : Value → Option (List Value)
  | .list items => some items
  | _ => none

/-- The text, the number or what else a kind of value a mapping has under a name. -/
def told? {α : Type} (kind : Value → Option α) (name : String) : Value → Option α
  | .mapping entries => (Value.entry? name entries).bind kind
  | _ => none

end Value

/-- The finding that a value tells of. -/
def Finding.ofValue? (value : Value) : Option Finding := do
  let path ← value.told? Value.text? "path"
  let line ← value.told? Value.int? "line"
  let rule ← value.told? Value.text? "rule"
  let code ← value.told? Value.text? "code"
  let message ← value.told? Value.text? "message"
  let severity ← (value.told? Value.text? "severity").bind Severity.ofWord?
  some ⟨path, line, rule.toString, code.toString, message.toString, severity⟩

/-- The counts that a value tells of. -/
def Summary.ofValue? (value : Value) : Option Summary := do
  let files ← (value.told? Value.int? "files").bind Int.toNat?
  let error ← (value.told? Value.int? "error").bind Int.toNat?
  let warning ← (value.told? Value.int? "warning").bind Int.toNat?
  let info ← (value.told? Value.int? "info").bind Int.toNat?
  some ⟨files, error, warning, info⟩

namespace CheckResult

/-- The counts, the findings and the verdict that a value tells of. -/
def told? (value : Value) : Option (Summary × List Finding × Bool) := do
  let summary ← value.told? Summary.ofValue? "summary"
  let items ← value.told? Value.items? "findings"
  let findings ← items.mapM Finding.ofValue?
  let passed ← value.told? Value.bool? "passed"
  some (summary, findings, passed)

end CheckResult

namespace Json

theorem areShowable_iff {items : List Json} :
    areShowable items = true ↔ ∀ item ∈ items, item.isShowable = true := by
  induction items with
  | nil => simp [areShowable]
  | cons item rest ih => simp [areShowable, ih]

end Json

namespace CheckResult

variable {result : CheckResult}

end CheckResult

namespace Run

/-! ### Where the document goes -/

variable {fs : FileSystem} {arguments : List String} {options : Options} {result : CheckResult}

end Run

open Run

/-- A line whose number has one digit too many has no document. -/
example : (payload ⟨["a.sol"], [⟨"a.sol", Nat.pow 10 4300, "tabs", "T", "Tab", .error⟩]⟩).toOption = none := by
  decide +kernel

end SolidityLint

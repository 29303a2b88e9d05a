import SolidityLint.Text.Blank
import SolidityLint.Text.LowerCase
import SolidityLint.Value.Display

/-! Severities of findings. Only an error blocks; a severity is written as a word in any case, with white space
    around it or not. -/

namespace SolidityLint

/-- How serious a finding is. -/
inductive Severity where
  | error
  | warning
  | info
  deriving DecidableEq, Inhabited

namespace Severity

/-- The severities in the order in which reports count them. -/
def all : List Severity :=
  [.error, .warning, .info]

def word : Severity → String
  | .error => "error"
  | .warning => "warning"
  | .info => "info"

theorem word_injective {a b : Severity} (h : a.word = b.word) : a = b := by
  cases a <;> cases b <;> first | rfl | simp [word] at h

/-- Whether a finding of this severity makes the check fail. -/
def isBlocking (s : Severity) : Bool :=
  s = .error

def ofWord? (word : RawText) : Option Severity :=
  all.find? fun s => s.word = word

/-- What a value says where a severity is expected: its text in small letters, without white space at the ends. -/
def spelling (value : Value) : RawText :=
  value.plain.trim.lower

def ofValue? (value : Value) : Option Severity :=
  ofWord? (spelling value)

/-- What is said of a value that names no severity. -/
def unknownMessage (value : Value) : String :=
  String.ofList (Text.quoted (spelling value)) ++ " is not a valid Severity"

end Severity

end SolidityLint

import SolidityLint.Config.Rules

/-! What a verbose run tells about its progress. -/

namespace SolidityLint

/-- A message about the progress of a run. -/
inductive Notice where
  | ignoredCategory (key : Value)
  | ignoredRule (category : Category) (key : Value)
  | configurationLoaded (path : RawText)
  | contractsFound (count : Nat)
  | checking (path : RawText)
  | categoryDone (path : RawText) (category : Category) (findings : Nat)

namespace Notice

/-- Whether the text of a message can be made: all numbers that it shows are short enough. -/
def isShowable : Notice → Bool
  | .ignoredCategory key | .ignoredRule _ key => key.isShowable
  | .contractsFound count | .categoryDone _ _ count => count < unshowableNumber
  | .configurationLoaded _ | .checking _ => true

/-- What is told in place of a message whose text cannot be made. It also lists the calls that lead there, which is
    left out: they depend on where the program stands. -/
def complaint : String :=
  "--- Logging error ---\nTraceback (most recent call last):\nValueError: " ++ ConfigError.numberTooLongMessage ++
    "\nCall stack:\nUnable to print the message and arguments - possible formatting error.\n" ++
    "Use the traceback above to help find the error."

/-- A message: its level, the part of the program that it comes from, and its text. -/
def text : Notice → RawText
  | .ignoredCategory key =>
    "DEBUG solstyle.config: Ignoring unsupported rule category " ++ String.ofList key.display
  | .ignoredRule category key =>
    "DEBUG solstyle.config: Ignoring unsupported rule " ++ category.key ++ "." ++ key.plain
  | .configurationLoaded path => "DEBUG solstyle.config: Loaded configuration from " ++ path
  | .contractsFound count =>
    "INFO solstyle.utils.code: Found " ++ toString count ++ " contract(s) to check"
  | .checking path => "DEBUG solstyle.engine: Checking " ++ path
  | .categoryDone path category findings =>
    "DEBUG solstyle.engine: " ++ path ++ ": " ++ category.key ++ " pass emitted " ++ toString findings ++
      " finding(s)"

/-- The line of a message. -/
def line (notice : Notice) : RawText :=
  if notice.isShowable then notice.text else complaint

end Notice

/-- The messages for the entries of a category: a key that is no rule is passed over. They end at the first entry
    that its rule does not accept. -/
def Category.entryNotices (category : Category) : List (Value × Value) → List Notice
  | [] => []
  | (key, value) :: rest =>
    match Rule.ofKey? category key with
    | none => .ignoredRule category key :: category.entryNotices rest
    | some rule => match rule.accept value with
      | .ok _ => category.entryNotices rest
      | .error _ => []

def Category.notices (category : Category) : Value → List Notice
  | .mapping entries => category.entryNotices entries
  | _ => []

namespace RuleConfiguration

/-- The messages for the entries of a rule configuration: a key that is no category is passed over. They end at the
    first fault. -/
def entryNotices : List (Value × Value) → List Notice
  | [] => []
  | (key, value) :: rest =>
    match Category.ofKey? key with
    | none => .ignoredCategory key :: entryNotices rest
    | some category => category.notices value ++ match category.read value with
      | .ok _ => entryNotices rest
      | .error _ => []

/-- The messages for a rule configuration. -/
def notices : Value → List Notice
  | .mapping entries => entryNotices entries
  | _ => []

end RuleConfiguration

end SolidityLint

import SolidityLint.Check.Context
import SolidityLint.Declaration.Constant
import SolidityLint.Declaration.Contract
import SolidityLint.Declaration.Event
import SolidityLint.Declaration.Function

/-! Names of contracts, functions, arguments, events and constants should have the style of their kind. A violation
    stands on the line where the declaration starts. -/

namespace SolidityLint.Check

open Declaration

/-- What is said of a name that lacks its style. -/
def styleMessage (kind : String) (name : List Char) (style : String) : String :=
  kind ++ " '" ++ String.ofList name ++ "' should use " ++ style ++ " style"

/-! ### Contracts -/

def contract (found : Nat × ContractSpan) : List Violation :=
  let name := found.2.name
  if NameStyle.capWords.admits name then []
  else [⟨found.1, .contracts, styleMessage "Contract name" name NameStyle.capWords.name⟩]

/-! ### Functions -/

/-- Whether a visibility keeps a function inside its contract or the contracts derived from it. -/
def isInner (visibility : String) : Bool :=
  visibility = "private" || visibility = "internal"

/-- The violation of the name of a function. Inner functions have a style of their own where that rule is on. -/
def functionName (rules : NamingRules) (found : Nat × FunctionSpan) : List Violation :=
  let name := found.2.name
  let visibility := visibility found.2.tail
  if isInner visibility && rules.privateInternalFunctions then
    if NameStyle.underscoreMixedCase.admits name then []
    else [⟨found.1, .privateInternalFunctions,
      styleMessage (visibility ++ " function") name NameStyle.underscoreMixedCase.name⟩]
  else if rules.functions && !NameStyle.mixedCase.admits name then
    [⟨found.1, .functions, styleMessage "Function name" name NameStyle.mixedCase.name⟩]
  else []

def functionArguments (rules : NamingRules) (found : Nat × FunctionSpan) : List Violation :=
  if rules.functionArguments then
    ((argumentNames found.2.arguments).filter fun name => !NameStyle.underscoreMixedCase.admits name).map fun name =>
      ⟨found.1, .functionArguments, styleMessage "Function argument" name NameStyle.underscoreMixedCase.name⟩
  else []

def function (rules : NamingRules) (found : Nat × FunctionSpan) : List Violation :=
  functionName rules found ++ functionArguments rules found

/-! ### Events -/

def event (rules : NamingRules) (found : Nat × EventSpan) : List Violation :=
  let name := found.2.name
  (if NameStyle.capWords.admits name then []
    else [⟨found.1, .events, styleMessage "Event name" name NameStyle.capWords.name⟩]) ++
  (if rules.eventsPastTense && !isPastTense name then
    [⟨found.1, .eventsPastTense, "Event name '" ++ String.ofList name ++
      "' should be past tense (e.g., 'OwnerUpdated' not 'OwnerUpdate')"⟩]
    else [])

/-! ### Constants -/

def constant (found : Nat × ConstantSpan) : List Violation :=
  let name := found.2.name
  if NameStyle.upperCase.admits name then []
  else [⟨found.1, .constants, styleMessage "Constant" name (NameStyle.upperCase.name ++ "_WITH_UNDERSCORES")⟩]

/-! ### All names -/

/-- The violations of the rules on names, kind by kind. -/
def naming (rules : NamingRules) (text : List Char) : List Violation :=
  (if rules.contracts then (contracts text).flatMap contract else []) ++
  (functions text).flatMap (function rules) ++
  (if rules.events then (events text).flatMap (event rules) else []) ++
  (if rules.constants then (constants text).flatMap constant else [])

/-- The pass over names, kind by kind. Functions are looked at if one of the three rules on them is on. -/
def namingPass (context : CheckContext) (rules : NamingRules) (result : CheckResult) : CheckResult :=
  let result := if rules.contracts then context.recordEach contract result (contracts context.text) else result
  let result :=
    if rules.functions || rules.privateInternalFunctions || rules.functionArguments then
      context.recordEach (function rules) result (functions context.text)
    else result
  let result := if rules.events then context.recordEach (event rules) result (events context.text) else result
  if rules.constants then context.recordEach constant result (constants context.text) else result

end SolidityLint.Check

import SolidityLint.Declaration.Identifier
import SolidityLint.Text.Alphanumeric
import SolidityLint.Text.Blank
import SolidityLint.Text.Occurrences
import SolidityLint.Text.Split

/-! Function declarations that have a body: name, arguments between parentheses, and the tail with visibility and
    modifiers up to the opening brace. -/

namespace SolidityLint.Declaration

open Text

/-- The pieces of a function declaration between its keyword and the brace that opens its body; the parentheses
    are left out, and every `gap` is white space. -/
structure FunctionSpan where
  gapName : List Char
  name : List Char
  gapOpen : List Char
  gapArguments : List Char
  arguments : List Char
  gapTail : List Char
  tail : List Char
  gapBody : List Char
  deriving DecidableEq

namespace FunctionSpan

def chars (span : FunctionSpan) : List Char :=
  "function".toList ++ span.gapName ++ span.name ++ span.gapOpen ++ '(' :: (span.gapArguments ++ span.arguments ++
    ')' :: (span.gapTail ++ span.tail ++ span.gapBody ++ ['{']))

def read? (cs : List Char) : Option FunctionSpan := do
  let rest ← afterWord? "function".toList cs
  let (gapName, rest) := rest.span isBlank
  guard !gapName.isEmpty
  let (name, rest) ← identifier? rest
  let (gapOpen, rest) := rest.span isBlank
  let rest ← afterWord? ['('] rest
  let (gapArguments, rest) := rest.span isBlank
  let (arguments, rest) := rest.span (· ≠ ')')
  let rest ← afterWord? [')'] rest
  let (gapTail, rest) := rest.span isBlank
  let (beforeBody, rest) := rest.span (· ≠ '{')
  guard !rest.isEmpty
  let tail := trimEnd beforeBody
  return { gapName, name, gapOpen, gapArguments, arguments, gapTail, tail, gapBody := beforeBody.drop tail.length }

end FunctionSpan

/-- The names that stand for no ordinary function. -/
def specialFunctions : List (List Char) :=
  ["constructor".toList, "receive".toList, "fallback".toList]

/-- The function declarations of a text with the lines they start on. Those of special functions take up their
    text but are left out. -/
def functions (cs : List Char) : List (Nat × FunctionSpan) :=
  (occurrences (fun _ => FunctionSpan.read?) (·.chars.length) cs).filter fun found =>
    !specialFunctions.contains found.2.name

/-! ### Visibility -/

def visibilityWords : List String :=
  ["public", "external", "internal", "private"]

def startsInWord : List Char → Bool
  | [] => false
  | c :: _ => isWordCharacter c

/-- The visibility that a text starts with as a whole word. -/
def visibilityAt? (cs : List Char) : Option String :=
  visibilityWords.find? fun word => match afterWord? word.toList cs with
    | some rest => !startsInWord rest
    | none => false

/-- The first visibility that stands in a text as a whole word; `inWord` says whether a word character stands in
    front of the text. -/
def findVisibility? (inWord : Bool) : List Char → Option String
  | [] => none
  | c :: rest =>
    match if inWord then none else visibilityAt? (c :: rest) with
    | some word => some word
    | none => findVisibility? (isWordCharacter c) rest

/-- The visibility that the tail of a declaration names, and `internal` if it names none. -/
def visibility (tail : List Char) : String :=
  (findVisibility? false tail).getD "internal"

/-! ### Arguments -/

/-- The words that name where an argument is stored. -/
def dataLocations : List (List Char) :=
  ["memory".toList, "storage".toList, "calldata".toList]

/-- Whether nothing follows, or the bracket of an array type, white space aside. -/
def endsArgument (cs : List Char) : Bool :=
  match trimStart cs with
  | [] => true
  | c :: _ => c = '['

/-- The first identifier that stands right after white space and ends an argument. -/
def lastWord? : List Char → Option (List Char)
  | [] => none
  | c :: rest =>
    match if isBlank c then identifier? rest else none with
    | some (name, after) => if endsArgument after then some name else lastWord? rest
    | none => lastWord? rest

theorem lastWord?_cons (c : Char) (rest : List Char) :
    lastWord? (c :: rest) = match if isBlank c then identifier? rest else none with
      | some (name, after) => if endsArgument after then some name else lastWord? rest
      | none => lastWord? rest := by
  rfl

/-- The name that a fragment between commas gives to its argument. -/
def argumentName? (fragment : List Char) : Option (List Char) :=
  (lastWord? (trim fragment)).filter fun name => !dataLocations.contains name

def argumentNames (arguments : List Char) : List (List Char) :=
  (splitOn ',' arguments).filterMap argumentName?

end SolidityLint.Declaration

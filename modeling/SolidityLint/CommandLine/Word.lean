import SolidityLint.CommandLine.Misuse
import SolidityLint.Text.Digit

/-! The words of a command line, each taken by itself. A word with a dash in front is an option. A long spelling may
    be cut short as long as only one option begins like it, and a value may follow it behind an equals sign. One-letter
    spellings may share a dash, and the last of them may be followed by its value. -/

namespace SolidityLint.CommandLine

/-- The use of an option. A value is absent if the word that should hold it is a double dash. -/
inductive Use where
  | switch (s : Switch)
  | value (parameter : Parameter) (value : Option String)
  deriving DecidableEq

/-- What a word is. -/
inductive Word where
  /-- A word that is no option; it can be the value of one. -/
  | operand (text : String)
  /-- A word that looks like an option, but is none. -/
  | unknown (text : String)
  /-- A double dash: no word behind it is an option. -/
  | separator
  /-- Options in order. -/
  | uses (uses : List Use)
  /-- Options in order, and one more whose value is the next word. -/
  | wanting (uses : List Use) (parameter : Parameter)
  /-- An option that is not used as it should be. -/
  | misuse (e : Misuse)
  deriving DecidableEq

namespace Word

/-- A word with one more use in front. -/
def precededBy (use : Use) : Word → Word
  | .uses rest => .uses (use :: rest)
  | .wanting rest parameter => .wanting (use :: rest) parameter
  | other => other

/-- An option without anything attached. -/
def alone : Flag → Word
  | .switch s => .uses [.switch s]
  | .parameter p => .wanting [] p

def attachedValue (text : List Char) : Option String :=
  if text = ['-', '-'] then none else some (String.ofList text)

/-- An option whose spelling is a single letter, with the text behind it: the value of the option, or else more
    letters. -/
def cluster : Flag → List Char → Word
  | flag, [] => alone flag
  | .parameter p, text => .uses [.value p (attachedValue text)]
  | .switch s, letter :: rest =>
    match Flag.ofLetter? letter with
    | some next => precededBy (.switch s) (cluster next rest)
    | none => .misuse (.valueUnwanted s (letter :: rest))

/-- An option with the text behind an equals sign. A text behind the letter of an option without a value is read as
    more letters. -/
def assigned (isLetter : Bool) (flag : Flag) (text : List Char) : Word :=
  match flag with
  | .parameter p => .uses [.value p (attachedValue text)]
  | .switch s => if isLetter && !text.isEmpty then cluster flag text else .misuse (.valueUnwanted s text)

/-- The parts of a word before and behind its first equals sign, if there is one. -/
def splitAssignment (word : List Char) : List Char × Option (List Char) :=
  let before := word.takeWhile (· ≠ '=')
  match word.drop before.length with
  | [] => (before, none)
  | _ :: behind => (before, some behind)

/-- Whether a word is a negative number: a dash and digits, with at most one point before the last of them. A newline
    at the end does not count. -/
def isNegativeNumber (word : List Char) : Bool :=
  let isDigit (c : Char) : Bool := (Text.decimalDigit? c).isSome
  let body := if word.getLast? = some '\n' then word.dropLast else word
  match body with
  | '-' :: number =>
    match number.dropWhile isDigit with
    | [] => !number.isEmpty
    | '.' :: fraction => !fraction.isEmpty && fraction.all isDigit
    | _ => false
  | _ => false

/-- A word with a dash in front that is no spelling of an option, nor the beginning of one. -/
def ofRest (word : List Char) : Word :=
  if isNegativeNumber word || word.contains ' ' then .operand (String.ofList word)
  else .unknown (String.ofList word)

/-- A word with a double dash in front that is no full spelling: the beginning of one. -/
def ofBeginning (word : List Char) : Except Misuse Word :=
  let (start, attached) := splitAssignment word
  match Flag.beginningWith start with
  | [] => .ok (ofRest word)
  | [(_, flag)] => .ok (match attached with
    | none => alone flag
    | some text => assigned false flag text)
  | several => .error (.ambiguous (String.ofList word) (several.map (·.1)))

/-- A word with a dash in front that is no full spelling. -/
def ofPart (word : List Char) : Except Misuse Word :=
  match word with
  | '-' :: '-' :: _ => ofBeginning word
  | '-' :: letter :: rest => .ok (match Flag.ofLetter? letter with
    | some flag => cluster flag rest
    | none => ofRest word)
  | _ => .ok (.operand (String.ofList word))

def ofDashed (word : List Char) : Except Misuse Word :=
  match Flag.ofSpelling? word with
  | some flag => .ok (alone flag)
  | none =>
    match splitAssignment word with
    | (spelling, some text) =>
      match Flag.ofSpelling? spelling with
      | some flag => .ok (assigned (spelling.length = 2) flag text)
      | none => ofPart word
    | (_, none) => ofPart word

/-- A word that is no double dash. -/
def ofString (word : String) : Except Misuse Word :=
  if word.toList.head? = some '-' then ofDashed word.toList else .ok (.operand word)

/-- The words of a command line. Behind a double dash every word is an operand. -/
def ofStrings : List String → Except Misuse (List Word)
  | [] => .ok []
  | word :: rest =>
    if word = "--" then .ok (.separator :: rest.map .operand)
    else do
      let first ← ofString word
      return first :: (← ofStrings rest)

end Word

end SolidityLint.CommandLine

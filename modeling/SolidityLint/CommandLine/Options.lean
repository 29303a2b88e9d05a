import SolidityLint.CommandLine.Word

/-! The choices that a command line makes. Of several values of an option the last one counts; only the names of
    contracts add up. -/

namespace SolidityLint.CommandLine

/-- What is printed behind the report when no file is written. -/
inductive Format where
  | text
  | json
  deriving DecidableEq

def Format.ofName? (name : String) : Option Format :=
  if name = "text" then some .text else if name = "json" then some .json else none

/-- The choices of a command line. An empty text makes no choice. -/
structure Options where
  config : String := ""
  sourceDir : String := ""
  contracts : List String := []
  format : Format := .text
  out : String := ""
  verbose : Bool := false
  deriving DecidableEq

/-- Why no check is made: help is asked for, or the command line is faulty. -/
inductive Halt where
  | help
  | misuse (e : Misuse)
  deriving DecidableEq

namespace Options

/-- Sets an option. Without a value a choice is taken back; a contract without a value has an empty list as its
    name. -/
def set (options : Options) (parameter : Parameter) (value : Option String) : Except Halt Options :=
  match parameter with
  | .config => .ok { options with config := value.getD "" }
  | .sourceDir => .ok { options with sourceDir := value.getD "" }
  | .contract => .ok { options with contracts := options.contracts ++ [value.getD "[]"] }
  | .out => .ok { options with out := value.getD "" }
  | .format => match value with
    | none => .ok { options with format := .text }
    | some name => match Format.ofName? name with
      | some format => .ok { options with format }
      | none => .error (.misuse (.formatUnknown name))

def use (options : Options) : Use → Except Halt Options
  | .switch .help => .error .help
  | .switch .verbose => .ok { options with verbose := true }
  | .value parameter value => options.set parameter value

/-- Uses options one after another. -/
def useAll (options : Options) (uses : List Use) : Except Halt Options :=
  uses.foldlM use options

/-- Reads words from left to right; `extras` are those before them that are neither options nor their values. -/
def readWords (extras : List String) (options : Options) : List Word → Except Halt Options
  | [] => if extras.isEmpty then .ok options else .error (.misuse (.unrecognized extras))
  | .operand text :: rest => readWords (extras ++ [text]) options rest
  | .unknown text :: rest => readWords (extras ++ [text]) options rest
  | .separator :: rest => readWords (extras ++ ["--"]) options rest
  | .uses uses :: rest => do readWords extras (← options.useAll uses) rest
  | .wanting uses parameter :: .operand value :: rest => do
    readWords extras (← options.useAll (uses ++ [.value parameter (some value)])) rest
  | .wanting _ parameter :: _ => .error (.misuse (.valueMissing parameter))
  | .misuse e :: _ => .error (.misuse e)

/-- The choices of a command line. A word that could be several options is a fault whatever stands before it. -/
def ofArguments (arguments : List String) : Except Halt Options :=
  match Word.ofStrings arguments with
  | .error e => .error (.misuse e)
  | .ok words => readWords [] {} words

end Options

end SolidityLint.CommandLine

import SolidityLint.CommandLine.Flag
import SolidityLint.Text.Quoted

/-! What can be wrong with a command line. -/

namespace SolidityLint.CommandLine

/-- A fault of a command line. -/
inductive Misuse where
  /-- A word is the beginning of several spellings. -/
  | ambiguous (word : String) (candidates : List String)
  | valueMissing (parameter : Parameter)
  | valueUnwanted (switch : Switch) (value : List Char)
  | formatUnknown (value : String)
  /-- Words that are neither options nor their values. -/
  | unrecognized (words : List String)
  deriving DecidableEq

def Misuse.message : Misuse → String
  | .ambiguous word candidates =>
    "ambiguous option: " ++ word ++ " could match " ++ ", ".intercalate candidates
  | .valueMissing parameter => "argument " ++ (Flag.parameter parameter).name ++ ": expected one argument"
  | .valueUnwanted switch value =>
    "argument " ++ (Flag.switch switch).name ++ ": ignored explicit argument " ++
      String.ofList (Text.quoted (.ofChars value))
  | .formatUnknown value =>
    "argument " ++ (Flag.parameter .format).name ++ ": invalid choice: " ++
      String.ofList (Text.quoted value) ++ " (choose from 'text', 'json')"
  | .unrecognized words => "unrecognized arguments: " ++ " ".intercalate words

end SolidityLint.CommandLine

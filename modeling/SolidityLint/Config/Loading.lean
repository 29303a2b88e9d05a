import SolidityLint.Config.Checker
import SolidityLint.Files.FileSystem
import SolidityLint.Yaml.Document

/-! Reading the configuration of a run from a file. -/

namespace SolidityLint

/-- Why a configuration cannot be read from a file: the file, its form, or its content. -/
inductive LoadFailure where
  | file (e : FileError)
  | form (e : Yaml.Error)
  | content (e : ConfigError)

namespace CheckerConfig

/-- What is done with the value of a rule configuration: messages can show the values of rules. -/
def rulesPurpose : Yaml.Purpose :=
  .within fun categoryKey => match Category.ofKey? categoryKey with
    | none => .unused
    | some category => .within fun key => if (Rule.ofKey? category key).isSome then .shown else .unused

/-- What is done with the value of a document: messages can show the values of rules, the names of contracts, and
    severities. -/
def purpose : Yaml.Purpose :=
  .within fun key => match key with
    | .str name =>
      if name = RawText.ofString "rules" then rulesPurpose
      else if ["contracts", "severity", "source_dir"].any fun (known : String) => name = known then
        .within fun _ => .shown
      else .unused
    | _ => .unused

/-- The value of the document in a file; a file that is not there has none. -/
def readDocument (fs : FileSystem) (path : Path) : Except LoadFailure (Option Value) := do
  if ← (fs.exists? path).mapError .file then
    let bytes ← (fs.read path).mapError .file
    ((Yaml.load purpose bytes).mapError .form).map some
  else return none

/-- The configuration in a file, and the messages about its reading. -/
def load (fs : FileSystem) (path : Path) : List Notice × Except LoadFailure CheckerConfig :=
  match readDocument fs path with
  | .error e => ([], .error e)
  | .ok value =>
    let value := value.getD .null
    (notices path.text value, (ofValue path.text value).mapError .content)

end CheckerConfig

end SolidityLint

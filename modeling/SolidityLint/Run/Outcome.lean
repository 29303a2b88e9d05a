import SolidityLint.Run.Failure

/-! What a run does, as data: its effects in order, and how it ends. -/

namespace SolidityLint

/-- An effect of a run. -/
inductive Effect where
  /-- A text on standard output. -/
  | output (text : RawText)
  /-- A text on standard error. -/
  | diagnostic (text : RawText)
  /-- A directory is made if it is not there, and those above it. -/
  | ensureDirectories (path : Path)
  /-- A file is written. -/
  | writeFile (path : Path) (content : String)

/-- How a run ends. -/
inductive Ending where
  | exit (code : Nat)
  /-- A failure that the run does not report breaks it off. -/
  | broken (failure : Failure)

/-- What a run does. -/
structure Outcome where
  effects : List Effect
  ending : Ending

namespace Effect

/-- The tree of files after an effect. A file that cannot be written leaves it as it is; of directories, those made
    before one that cannot be made stay. -/
def apply (fs : FileSystem) : Effect → FileSystem
  | .output _ | .diagnostic _ => fs
  | .ensureDirectories path => (fs.ensureDirectories path).1
  | .writeFile path content => (fs.write path (Utf8.encode content.toList)).toOption.getD fs

/-- The text of an effect on standard output. -/
def outputText : Effect → RawText
  | .output text => text
  | _ => ""

/-- The text of an effect on standard error. -/
def diagnosticText : Effect → RawText
  | .diagnostic text => text
  | _ => ""

end Effect

namespace Outcome

/-- All that a run prints on standard output. -/
def standardOutput (outcome : Outcome) : RawText :=
  RawText.concat (outcome.effects.map Effect.outputText)

/-- All that a run prints on standard error. -/
def standardError (outcome : Outcome) : RawText :=
  RawText.concat (outcome.effects.map Effect.diagnosticText)

/-- The tree of files after a run. -/
def filesAfter (outcome : Outcome) (fs : FileSystem) : FileSystem :=
  outcome.effects.foldl Effect.apply fs

/-- A run with effects in front of it. -/
def precededBy (effects : List Effect) (outcome : Outcome) : Outcome :=
  { outcome with effects := effects ++ outcome.effects }

end Outcome

end SolidityLint

import SolidityLint.Run

/-! The command line program: it takes up the files that a run can look at, and carries out the effects of the run. -/

namespace SolidityLint

/-- What is at a path: a file, or a directory, with all that is in it if the look is deep. -/
partial def look? (deep : Bool) (path : String) : IO (Option Entry) := do
  let real := (← IO.currentDir) / path
  if ← real.isDir then
    if !deep then return some (.directory [])
    let mut children : List (String × Entry) := []
    for item in ← real.readDir do
      if let some entry ← look? deep (path ++ "/" ++ item.fileName) then
        children := children ++ [(item.fileName, entry)]
    return some (.directory children)
  else if ← real.pathExists then
    return some (.file (← IO.FS.readBinFile real).toList)
  else return none

/-- A tree of files with what is on the way to a path and at its end. -/
def takeUp (fs : FileSystem) (deep : Bool) (path : Path) : IO FileSystem := do
  let mut root := fs.root
  let mut place := fs.start path
  for part in path.parts do
    place := if part = RawText.ofString ".." then place.dropLast else place ++ [part.toString]
    if (root.get? place).isNone then
      if let some entry ← look? false ("/" ++ "/".intercalate place) then
        root := root.place place entry
  if deep then
    if let some entry ← look? true ("/" ++ "/".intercalate place) then
      root := root.place place entry
  return { fs with root }

/-- The files that a run with the choices of a command line can look at. -/
def surroundings (options : CommandLine.Options) : IO FileSystem := do
  let place := (Path.ofText (← IO.currentDir).toString).parts.map RawText.toString
  let mut fs : FileSystem := ⟨(Entry.directory []).place place (.directory []), place⟩
  if !options.config.isEmpty then
    fs ← takeUp fs false (.ofText options.config)
  if let (_, .ok config) := Run.settle fs options then
    fs ← takeUp fs true (.ofText config.sourceDir)
    for name in config.contractNames do
      fs ← takeUp fs false (Discovery.contractPath (.ofText config.sourceDir) name)
  if !options.out.isEmpty then
    fs ← takeUp fs false (.ofText options.out)
  return fs

def Effect.carryOut : Effect → IO Unit
  | .output text => do (← IO.getStdout).putStr text.toString
  | .diagnostic text => do (← IO.getStderr).putStr text.toString
  | .ensureDirectories path => IO.FS.createDirAll path.text.toString
  | .writeFile path content => IO.FS.writeFile path.text.toString content

/-- Carries out a run and gives its exit code; a run that breaks off tells why. -/
def Outcome.carryOut (outcome : Outcome) : IO UInt32 := do
  match outcome.ending with
  | .exit code =>
    outcome.effects.forM Effect.carryOut
    return code.toUInt32
  | .broken failure =>
    for effect in outcome.effects do
      try effect.carryOut catch _ => pure ()
    (← IO.getStderr).putStrLn failure.message.toString
    return 1

end SolidityLint

open SolidityLint

/-- Runs the program with the words of its command line. -/
def main (arguments : List String) : IO UInt32 := do
  let fs ← match CommandLine.Options.ofArguments arguments with
    | .ok options => surroundings options
    | .error _ => pure ⟨.directory [], []⟩
  (run fs arguments).carryOut

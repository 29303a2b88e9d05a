import SolidityLint.Files.FileSystem

/-! Which files are checked: those of the given names, or all below the source directory if one of the names is a
    star. -/

namespace SolidityLint

/-- Why the files to check cannot be found. -/
inductive DiscoveryError where
  | sourceDirectoryMissing (directory : Path)
  | contractMissing (file directory : Path)
  /-- A path cannot be followed. -/
  | access (e : FileError)
  deriving DecidableEq

def DiscoveryError.message : DiscoveryError → RawText
  | .sourceDirectoryMissing directory => "Source directory not found: " ++ directory.text
  | .contractMissing file directory => "Contract " ++ file.name ++ " not found in " ++ directory.text ++ "/"
  | .access e => e.message

namespace Discovery

/-- The ending of the files that are checked. -/
def sourceEnding : String :=
  ".sol"

/-- The name that stands for all files. -/
def wildcard : String :=
  "*"

/-- The files below a directory, entry by entry in the order of the names by code points. The first entry in that order
    that cannot be looked up is the failure. -/
def inNameOrder (found : List (String × Except FileError (List Path))) : Except FileError (List Path) :=
  ((found.mergeSort fun a b => !decide (b.1 < a.1)).mapM Prod.snd).map List.flatten

mutual

/-- The files to check at or below an entry. -/
def walk (fs : FileSystem) (path : Path) (name : String) : Entry → Except FileError (List Path)
  | .file _ => .ok (if hasEnding sourceEnding name then [path] else [])
  | .directory children => inNameOrder (walkChildren fs path children)

/-- The files to check at or below each entry of a directory, with the name of the entry. -/
def walkChildren (fs : FileSystem) (path : Path) : List (String × Entry) → List (String × Except FileError (List Path))
  | [] => []
  | child :: rest => walkChild fs path child :: walkChildren fs path rest

/-- The files to check at or below an entry of a directory, with its name. The entry is looked up by its path, whatever
    its name, and the path can be too long for that. -/
def walkChild (fs : FileSystem) (path : Path) : String × Entry → String × Except FileError (List Path)
  | (name, entry) =>
    (name, match fs.entry? (path.child name) with
      | .error e => .error e
      | .ok _ => walk fs (path.child name) name entry)

end

def contractPath (directory : Path) (name : RawText) : Path :=
  directory.join (.ofText (name ++ sourceEnding))

/-- The files of the given names, in their order; the first that is not there is the failure. -/
def named (fs : FileSystem) (directory : Path) : List RawText → Except DiscoveryError (List Path)
  | [] => .ok []
  | name :: rest =>
    let path := contractPath directory name
    match fs.isFile path with
    | .error e => .error (.access e)
    | .ok isThere =>
      if isThere then (named fs directory rest).map (path :: ·) else .error (.contractMissing path directory)

end Discovery

/-- The files to check, in the order in which they are checked. -/
def discover (fs : FileSystem) (directory : Path) (names : List RawText) : Except DiscoveryError (List Path) :=
  match fs.entry? directory with
  | .error e => .error (.access e)
  | .ok (some (.directory children)) =>
    if names.contains (RawText.ofString Discovery.wildcard) then
      (Discovery.walk fs directory "" (.directory children)).mapError .access
    else Discovery.named fs directory names
  | _ => .error (.sourceDirectoryMissing directory)

end SolidityLint

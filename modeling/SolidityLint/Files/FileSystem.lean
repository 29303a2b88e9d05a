import SolidityLint.Files.Name
import SolidityLint.Files.Path
import SolidityLint.Text.Quoted

/-! A tree of directories and files, seen from a working directory. Paths are followed part by part, and a double
    dot leads to the directory above. -/

namespace SolidityLint

/-- A file with its bytes, or a directory with its named entries. -/
inductive Entry where
  | file (content : List UInt8)
  | directory (children : List (String × Entry))
  deriving Inhabited

namespace Entry

def child? (entry : Entry) (name : String) : Option Entry :=
  match entry with
  | .file _ => none
  | .directory children => (children.find? (·.1 = name)).map (·.2)

/-- The entry at the end of a chain of names. -/
def get? (entry : Entry) : List String → Option Entry
  | [] => some entry
  | name :: rest => match entry.child? name with
    | some child => child.get? rest
    | none => none

/-- Sets the child of a directory with a name; a new child goes to the end. -/
def setChild (entry : Entry) (name : String) (child : Entry) : Entry :=
  match entry with
  | .file content => .file content
  | .directory children =>
    if children.any (·.1 = name) then
      .directory (children.map fun old => if old.1 = name then (name, child) else old)
    else .directory (children ++ [(name, child)])

/-- Sets the entry at the end of a chain of names; the directories on the way have to be there. -/
def set (entry : Entry) (names : List String) (new : Entry) : Entry :=
  match names with
  | [] => new
  | name :: rest => match entry.child? name with
    | some child => entry.setChild name (child.set rest new)
    | none => if rest.isEmpty then entry.setChild name new else entry

/-- Sets the entry at the end of a chain of names and makes the directories on the way. -/
def place (entry : Entry) (names : List String) (new : Entry) : Entry :=
  match names with
  | [] => new
  | name :: rest => entry.setChild name (((entry.child? name).getD (.directory [])).place rest new)

def isDirectory : Entry → Bool
  | .file _ => false
  | .directory _ => true

def isFile (entry : Entry) : Bool :=
  !entry.isDirectory

end Entry

/-- Why an operation on a path fails. -/
inductive Obstacle where
  | missing
  | exists
  | notDirectory
  | isDirectory
  /-- A name or the whole path has more bytes than there may be. -/
  | nameTooLong
  /-- The path has a null character in it. -/
  | nullByte
  deriving DecidableEq

/-- The failure of an operation on a path. -/
structure FileError where
  obstacle : Obstacle
  path : Path
  deriving DecidableEq

/-- The text of a failure: the number and the name of the obstacle, and the path in quotes. -/
def FileError.message (e : FileError) : String :=
  let withPath (reason : String) : String := reason ++ ": " ++ String.ofList (Text.quoted e.path.text)
  match e.obstacle with
  | .missing => withPath "[Errno 2] No such file or directory"
  | .exists => withPath "[Errno 17] File exists"
  | .notDirectory => withPath "[Errno 20] Not a directory"
  | .isDirectory => withPath "[Errno 21] Is a directory"
  | .nameTooLong => withPath "[Errno 36] File name too long"
  | .nullByte => "embedded null byte"

/-- A tree of files and the place in it from which relative paths are followed. -/
structure FileSystem where
  root : Entry
  workingDirectory : List String

namespace FileSystem

/-- The largest number of bytes of a name. -/
def nameLimit : Nat :=
  255

/-- The largest number of bytes of a path. -/
def pathLimit : Nat :=
  4095

/-- What keeps a path from being followed from its start on. -/
def startObstacle? (path : Path) : Option Obstacle :=
  match path.text.nameBytes? with
  | none => some .missing
  | some bytes =>
    if bytes.contains 0 then some .nullByte else if pathLimit < bytes.length then some .nameTooLong else none

def nameOf (part : RawText) : Except Obstacle String :=
  if nameLimit < (part.nameBytes?.getD []).length then .error .nameTooLong
  else match part.name? with
    | some name => .ok name
    | none => .error .missing

def follow (root : Entry) (place : List String) : (parts : List RawText) → Except Obstacle (List String)
  | [] => .ok place
  | part :: rest =>
    match root.get? place with
    | none => .error .missing
    | some (.file _) => .error .notDirectory
    | some (.directory children) =>
      if part = RawText.ofString ".." then follow root place.dropLast rest
      else do
        let name ← nameOf part
        if children.any (·.1 = name) then follow root (place ++ [name]) rest else .error .missing

def start (fs : FileSystem) (path : Path) : List String :=
  if path.slashes = 0 then fs.workingDirectory else []

/-- The place to which a path leads. -/
def locate (fs : FileSystem) (path : Path) : Except Obstacle (List String) :=
  match startObstacle? path with
  | some obstacle => .error obstacle
  | none => follow fs.root (fs.start path) path.parts

/-- The entry to which a path leads, if there is one. Only a name that is too long is a failure. -/
def entry? (fs : FileSystem) (path : Path) : Except FileError (Option Entry) :=
  match fs.locate path with
  | .ok place => .ok (fs.root.get? place)
  | .error .nameTooLong => .error ⟨.nameTooLong, path⟩
  | .error _ => .ok none

def exists? (fs : FileSystem) (path : Path) : Except FileError Bool :=
  (fs.entry? path).map Option.isSome

def isDirectory (fs : FileSystem) (path : Path) : Except FileError Bool :=
  (fs.entry? path).map fun entry => (entry.map Entry.isDirectory).getD false

def isFile (fs : FileSystem) (path : Path) : Except FileError Bool :=
  (fs.entry? path).map fun entry => (entry.map Entry.isFile).getD false

def read (fs : FileSystem) (path : Path) : Except FileError (List UInt8) :=
  match fs.locate path with
  | .error obstacle => .error ⟨obstacle, path⟩
  | .ok place => match fs.root.get? place with
    | some (.file content) => .ok content
    | some (.directory _) => .error ⟨.isDirectory, path⟩
    | none => .error ⟨.missing, path⟩

/-- The place of a new or an existing entry: that of its directory, and its name. A path without parts and one that
    ends in a double dot lead to a directory that is there. -/
def target (fs : FileSystem) (path : Path) : Except Obstacle (List String × String) :=
  match startObstacle? path, path.parts.getLast? with
  | some obstacle, _ => .error obstacle
  | none, none => .error .exists
  | none, some part => do
    let place ← fs.locate path.parent
    match fs.root.get? place with
    | some (.directory _) =>
      if part = RawText.ofString ".." then .error .exists else (nameOf part).map (place, ·)
    | some (.file _) => .error .notDirectory
    | none => .error .missing

/-- Makes a directory in a directory that is there. -/
def makeDirectory (fs : FileSystem) (path : Path) : Except FileError FileSystem :=
  match fs.target path with
  | .error obstacle => .error ⟨obstacle, path⟩
  | .ok (place, name) =>
    if (fs.root.get? (place ++ [name])).isSome then .error ⟨.exists, path⟩
    else .ok { fs with root := fs.root.set (place ++ [name]) (.directory []) }

/-- Makes a directory if it is not there. -/
def ensureDirectory (fs : FileSystem) (path : Path) : FileSystem × Except FileError Unit :=
  match fs.makeDirectory path with
  | .ok after => (after, .ok ())
  | .error e => (fs, match fs.isDirectory path with
      | .ok isThere => if isThere then .ok () else .error e
      | .error e => .error e)

/-- Makes the directory at the first `count` parts of a path, and before it those above it that are missing. What
    was made stays if a later one cannot be made. -/
def ensureParts (fs : FileSystem) (path : Path) : (count : Nat) → FileSystem × Except FileError Unit
  | 0 => fs.ensureDirectory { path with parts := [] }
  | count + 1 =>
    let here : Path := { path with parts := path.parts.take (count + 1) }
    match fs.makeDirectory here with
    | .error ⟨.missing, _⟩ =>
      match fs.ensureParts path count with
      | (after, .ok ()) => after.ensureDirectory here
      | (after, .error e) => (after, .error e)
    | _ => fs.ensureDirectory here

/-- Makes a directory and those above it that are missing. -/
def ensureDirectories (fs : FileSystem) (path : Path) : FileSystem × Except FileError Unit :=
  fs.ensureParts path path.parts.length

/-- Writes a file, new or in place of one that is there. -/
def write (fs : FileSystem) (path : Path) (content : List UInt8) : Except FileError FileSystem :=
  match fs.target path with
  | .error .exists => .error ⟨.isDirectory, path⟩
  | .error obstacle => .error ⟨obstacle, path⟩
  | .ok (place, name) =>
    match fs.root.get? (place ++ [name]) with
    | some (.directory _) => .error ⟨.isDirectory, path⟩
    | _ => .ok { fs with root := fs.root.set (place ++ [name]) (.file content) }

end FileSystem

end SolidityLint

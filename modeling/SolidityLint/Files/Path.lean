import SolidityLint.Text.Raw
import SolidityLint.Text.Split

/-! Paths of files. A path is a list of parts, absolute or relative; empty parts and single dots are dropped when a
    text is read, double dots are kept. -/

namespace SolidityLint

/-- A path: the number of slashes in front (none if it is relative) and its parts. -/
structure Path where
  slashes : Nat
  parts : List RawText
  deriving DecidableEq, Inhabited

namespace Path

/-- The parts of a path text that count. -/
def partsOf (s : RawText) : List RawText :=
  ((Text.splitOn (.char '/') s.points).map RawText.mk).filter fun part =>
    !part.isEmpty && part ≠ RawText.ofString "."

/-- The number of slashes that a path text keeps in front: exactly two are kept, more count as one. -/
def slashesOf (s : RawText) : Nat :=
  let count := (s.points.takeWhile (· = .char '/')).length
  if count ≤ 2 then count else 1

def ofText (s : RawText) : Path :=
  ⟨slashesOf s, partsOf s⟩

/-- The text of a path; a single dot if it has no parts. -/
def text (path : Path) : RawText :=
  let written := RawText.ofChars (List.replicate path.slashes '/') ++ RawText.joined "/" path.parts
  if written.isEmpty then "." else written

/-- A path inside another; an absolute path stands for itself. -/
def join (base inner : Path) : Path :=
  if inner.slashes = 0 then ⟨base.slashes, base.parts ++ inner.parts⟩ else inner

def child (path : Path) (name : String) : Path :=
  { path with parts := path.parts ++ [.ofString name] }

/-- The path without its last part; a path without parts is its own parent. -/
def parent (path : Path) : Path :=
  { path with parts := path.parts.dropLast }

/-- The last part of a path, empty if it has none. -/
def name (path : Path) : RawText :=
  path.parts.getLast?.getD ⟨[]⟩

/-- The path that leads from one path to another below it. -/
def relativeTo? (path base : Path) : Option Path :=
  if path.slashes = base.slashes ∧ base.parts.isPrefixOf path.parts then
    some ⟨0, path.parts.drop base.parts.length⟩
  else none

end Path

/-- Whether a file name ends with an ending and has more in front of it. -/
def hasEnding (ending name : String) : Bool :=
  ending.toList.isSuffixOf name.toList && ending.length < name.length

end SolidityLint

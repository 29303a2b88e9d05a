import SolidityLint.Bytes.Utf8
import SolidityLint.Files.FileSystem
import SolidityLint.Source
import SolidityLint.Text.Newlines

/-! Reading files to check. A file that is not there has no text, and ill-formed bytes are replaced, so that a stray
    encoding never stops a check. -/

namespace SolidityLint

/-- The text of bytes: decoded with replacement, with all line ends written as newlines. -/
def sourceText (bytes : List UInt8) : String :=
  String.ofList (Text.unifyNewlines (Utf8.decode bytes))

/-- The file at a path, reported under the given path. -/
def Source.load (fs : FileSystem) (path : Path) (shown : RawText) : Except FileError Source := do
  if ← fs.exists? path then (fs.read path).map fun bytes => ⟨shown, sourceText bytes⟩
  else .ok ⟨shown, ""⟩

end SolidityLint

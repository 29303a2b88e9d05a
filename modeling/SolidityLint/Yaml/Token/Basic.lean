import SolidityLint.Yaml.Error

/-! Tokens of a YAML document: marks for where documents and collections start and end, and the properties and the
    text of scalars. -/

namespace SolidityLint.Yaml

/-- An instruction in front of a document. -/
inductive Directive where
  | version (major minor : Nat)
  | tagHandle (handle expansion : List Char)
  | other
  deriving DecidableEq

/-- A token. The last token of a text is the end of the stream or the fault that keeps the rest from being read. -/
inductive Token where
  | directive (directive : Directive)
  | documentStart
  | documentEnd
  | blockSequenceStart
  | blockMappingStart
  | blockEnd
  | flowSequenceStart
  | flowSequenceEnd
  | flowMappingStart
  | flowMappingEnd
  | blockEntry
  | flowEntry
  | key
  | value
  | alias (name : List Char)
  | anchor (name : List Char)
  | tag (handle : Option (List Char)) (suffix : List Char)
  | scalar (text : RawText) (isPlain : Bool)
  | streamEnd
  | fault (e : Error)
  deriving DecidableEq

end SolidityLint.Yaml

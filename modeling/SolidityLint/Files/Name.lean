import SolidityLint.Bytes.Utf8
import SolidityLint.Text.Raw

/-! Names of files as bytes. A name is written in UTF-8, and a half from U+DC80 to U+DCFF stands for the single byte
    that its number ends with; other halves stand for nothing that a name can hold. -/

namespace SolidityLint

def CodePoint.nameBytes? : CodePoint → Option (List UInt8)
  | .char c => some (String.utf8EncodeChar c)
  | .half offset => if 0x480 ≤ offset.val ∧ offset.val < 0x500 then some [(offset.val - 0x400).toUInt8] else none

def RawText.nameBytes? (s : RawText) : Option (List UInt8) :=
  (s.points.mapM CodePoint.nameBytes?).map List.flatten

/-- The name that a text spells, if its bytes are the text of one. -/
def RawText.name? (s : RawText) : Option String :=
  s.nameBytes?.bind fun bytes => (Utf8.decodeStrict bytes).toOption.map String.ofList

end SolidityLint

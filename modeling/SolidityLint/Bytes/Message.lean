import SolidityLint.Bytes.Utf8
import SolidityLint.Text.Digit

/-! The text of a decoding error. -/

namespace SolidityLint.Utf8

/-- What is wrong with an ill-formed part, in words. -/
def Fault.message : Fault → String
  | .invalidStart => "invalid start byte"
  | .invalidContinuation => "invalid continuation byte"
  | .unexpectedEnd => "unexpected end of data"

/-- The text of a decoding error. A single byte is shown, of several only where they stand. -/
def DecodeError.message (e : DecodeError) : String :=
  let place :=
    if e.width = 1 then
      "byte 0x" ++ String.ofList (Text.hexDigits 2 e.byte.toNat) ++ " in position " ++ toString e.position
    else "bytes in position " ++ toString e.position ++ "-" ++ toString (e.position + e.width - 1)
  "'utf-8' codec can't decode " ++ place ++ ": " ++ e.reason.message

end SolidityLint.Utf8

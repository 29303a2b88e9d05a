import SolidityLint.Bytes.Message
import SolidityLint.Value.Display

/-! Why a YAML document cannot be read. Faults of form are not told apart; faults of single values say what they
    are. -/

namespace SolidityLint.Yaml

/-- A fault of a document. -/
inductive Error where
  /-- The bytes of the document are no text. -/
  | undecodable (e : Utf8.DecodeError)
  /-- The document breaks the rules of the format. -/
  | malformed
  /-- An escape names a code beyond the last character. -/
  | codeOutOfRange
  /-- An escape names a code that needs more than thirty-one bits. -/
  | codeTooLarge
  | notInteger (base : Nat) (text : RawText)
  /-- A whole number has more digits than can be read. -/
  | integerTooLong (digits : Nat)
  | notFloat (text : RawText)
  /-- A whole number is too large for a number with a fraction. -/
  | integerTooLarge
  | notTruthValue (text : RawText)
  /-- A number has no digits at all. -/
  | emptyNumber
  | notTimestamp
  /-- A mapping stands for a text that leads back to the mapping itself. -/
  | endless
  /-- The tag of timestamps is on a mapping that stands for a text. -/
  | timestampNotText
  | yearOutOfRange (year : Nat)
  | monthOutOfRange
  | dayOutOfRange
  | hourOutOfRange
  | minuteOutOfRange
  | secondOutOfRange
  | offsetOutOfRange (minutes : Int)
  deriving DecidableEq

/-- A text in quotes. -/
def shownText (s : RawText) : String :=
  String.ofList (Text.quoted s)

/-- The text of a fault. Of a text that is no whole number only the first 200 characters are shown. -/
def Error.message : Error → String
  | .undecodable e => e.message
  | .malformed => "malformed document"
  | .codeOutOfRange => "chr() arg not in range(0x110000)"
  | .codeTooLarge => "Python int too large to convert to C int"
  | .notInteger base text =>
    "invalid literal for int() with base " ++ toString base ++ ": " ++ String.ofList ((Text.quoted text).take 200)
  | .integerTooLong digits =>
    "Exceeds the limit (4300 digits) for integer string conversion: value has " ++ toString digits ++
      " digits; use sys.set_int_max_str_digits() to increase the limit"
  | .notFloat text => "could not convert string to float: " ++ shownText text
  | .integerTooLarge => "int too large to convert to float"
  | .notTruthValue text => shownText text
  | .emptyNumber => "string index out of range"
  | .notTimestamp => "'NoneType' object has no attribute 'groupdict'"
  | .endless => "maximum recursion depth exceeded"
  | .timestampNotText => "expected string or bytes-like object, got 'list'"
  | .yearOutOfRange year => "year " ++ toString year ++ " is out of range"
  | .monthOutOfRange => "month must be in 1..12"
  | .dayOutOfRange => "day is out of range for month"
  | .hourOutOfRange => "hour must be in 0..23"
  | .minuteOutOfRange => "minute must be in 0..59"
  | .secondOutOfRange => "second must be in 0..59"
  | .offsetOutOfRange minutes =>
    "offset must be a timedelta strictly between -timedelta(hours=24) and timedelta(hours=24), not " ++
      String.ofList (Value.displaySpan minutes) ++ "."

end SolidityLint.Yaml

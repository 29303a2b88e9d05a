import SolidityLint.Json.Basic
import SolidityLint.Number.Shortest
import SolidityLint.Text.Digit

/-! The printed form of JSON documents: one member or item a line, two blanks for each level, and nothing but
    printable ASCII and newlines. Characters outside the basic plane are written as a pair of surrogates. -/

namespace SolidityLint.Json

open Text

/-- A four-digit escape. -/
def unicodeEscape (code : Nat) : List Char :=
  '\\' :: 'u' :: hexDigits 4 code

/-- A character as it stands inside a quoted string. -/
def escape (c : Char) : List Char :=
  if c = '"' then ['\\', '"']
  else if c = '\\' then ['\\', '\\']
  else if c = '\n' then ['\\', 'n']
  else if c = '\r' then ['\\', 'r']
  else if c = '\t' then ['\\', 't']
  else if c = '\x0c' then ['\\', 'f']
  else if c = '\x08' then ['\\', 'b']
  else if ' ' ≤ c ∧ c ≤ '~' then [c]
  else if c.toNat < 0x10000 then unicodeEscape c.toNat
  else
    let offset := c.toNat - 0x10000
    unicodeEscape (0xD800 + offset / 0x400) ++ unicodeEscape (0xDC00 + offset % 0x400)

/-- A code point as it stands inside a quoted string. -/
def escapePoint : CodePoint → List Char
  | .char c => escape c
  | .half offset => unicodeEscape (CodePoint.half offset).code

/-- A quoted string. -/
def quote (s : RawText) : List Char :=
  '"' :: s.points.flatMap escapePoint ++ ['"']

/-- The digits of a whole number, with its sign. -/
def intText : Int → List Char
  | .ofNat n => Nat.toDigits 10 n
  | .negSucc n => '-' :: Nat.toDigits 10 (n + 1)

/-- The text of a number with a fraction; infinities and what is no number have words of their own. -/
def floatText (x : Binary64) : List Char :=
  if x.isNaN then "NaN".toList
  else if x.isFinite then x.text
  else if x.isNegative then "-Infinity".toList
  else "Infinity".toList

/-- A new line at a level of nesting. -/
def newLine (level : Nat) : List Char :=
  '\n' :: List.replicate (2 * level) ' '

mutual

/-- A document printed at a level of nesting. -/
def write (level : Nat) : Json → List Char
  | .null => "null".toList
  | .bool true => "true".toList
  | .bool false => "false".toList
  | .int n => intText n
  | .float x => floatText x
  | .str s => quote s
  | .arr [] => ['[', ']']
  | .arr (item :: items) =>
    '[' :: newLine (level + 1) ++ write (level + 1) item ++ writeItems (level + 1) items ++ newLine level ++ [']']
  | .obj [] => ['{', '}']
  | .obj (member :: members) =>
    '{' :: newLine (level + 1) ++ writeMember (level + 1) member ++ writeMembers (level + 1) members ++
      newLine level ++ ['}']

/-- The items after the first, each behind a comma. -/
def writeItems (level : Nat) : List Json → List Char
  | [] => []
  | item :: items => ',' :: newLine level ++ write level item ++ writeItems level items

/-- A member: its name, a colon and its value. -/
def writeMember (level : Nat) : RawText × Json → List Char
  | (name, value) => quote name ++ ':' :: ' ' :: write level value

/-- The members after the first, each behind a comma. -/
def writeMembers (level : Nat) : List (RawText × Json) → List Char
  | [] => []
  | member :: members => ',' :: newLine level ++ writeMember level member ++ writeMembers level members

end

/-- The printed form of a document whose numbers may be of any length. -/
def print (document : Json) : String :=
  String.ofList (document.write 0)

/-! ### Numbers that are too long -/

mutual

/-- Whether a document can be printed: all whole numbers in it are short enough. -/
def isShowable : Json → Bool
  | .int n => n.natAbs < unshowableNumber
  | .arr items => areShowable items
  | .obj members => areMembersShowable members
  | _ => true

/-- Whether all items can be printed. -/
def areShowable : List Json → Bool
  | [] => true
  | item :: items => isShowable item && areShowable items

/-- Whether all members can be printed. -/
def areMembersShowable : List (RawText × Json) → Bool
  | [] => true
  | member :: members => isMemberShowable member && areMembersShowable members

/-- Whether the value of a member can be printed. -/
def isMemberShowable : RawText × Json → Bool
  | (_, value) => isShowable value

end

/-- The printed form of a document, if all numbers in it are short enough. -/
def print? (document : Json) : Option String :=
  if document.isShowable then some document.print else none

end SolidityLint.Json

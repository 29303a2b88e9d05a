import SolidityLint.Json.Basic
import SolidityLint.Number.Reading
import SolidityLint.Text.Split

/-! Reading JSON documents. The words `NaN`, `Infinity` and `-Infinity` are read as numbers, and an escape may stand
    for half a surrogate pair. -/

namespace SolidityLint.Json

open Text Number

/-- Drops the white space that may stand between the parts of a document. -/
def skipSpace (cs : List Char) : List Char :=
  cs.dropWhile fun c => c = ' ' || c = '\n' || c = '\t' || c = '\r'

def fourDigits? : List Char → Option (Nat × List Char)
  | a :: b :: c :: d :: rest => (hexNumber? [a, b, c, d]).map (·, rest)
  | _ => none

/-- The second half of a pair, if the escape for it comes next, and what follows it. -/
def lowHalf? : List Char → Option (Nat × List Char)
  | '\\' :: 'u' :: rest => (fourDigits? rest).filter fun found => 0xDC00 ≤ found.1 && found.1 < 0xE000
  | _ => none

/-- The code point that an escape with four digits stands for, joining the halves of a pair. -/
def unicodeEscape? (cs : List Char) : Option (CodePoint × List Char) := do
  let (code, rest) ← fourDigits? cs
  if 0xD800 ≤ code ∧ code < 0xDC00 then
    match lowHalf? rest with
    | some (low, after) => some (.char (Char.ofNat (0x10000 + (code - 0xD800) * 0x400 + (low - 0xDC00))), after)
    | none => some (.ofCode code, rest)
  else some (.ofCode code, rest)

/-- The character that the letter of a short escape stands for. -/
def shortEscape? : Char → Option Char
  | '"' => some '"'
  | '\\' => some '\\'
  | '/' => some '/'
  | 'b' => some '\x08'
  | 'f' => some '\x0c'
  | 'n' => some '\n'
  | 'r' => some '\r'
  | 't' => some '\t'
  | _ => none

/-- The first code point of the inside of a string and what follows it; nothing at the closing quote. -/
def stringPoint? : List Char → Option (CodePoint × List Char)
  | '\\' :: 'u' :: rest => unicodeEscape? rest
  | '\\' :: c :: rest => (shortEscape? c).map fun found => (.char found, rest)
  | c :: rest => if c = '"' ∨ c = '\\' ∨ c < ' ' then none else some (.char c, rest)
  | [] => none

/-- The inside of a string up to its closing quote, and what follows; `done` is what was read, backwards. -/
def readString (done : List CodePoint) : (fuel : Nat) → List Char → Option (RawText × List Char)
  | 0, _ => none
  | fuel + 1, cs =>
    match cs with
    | '"' :: rest => some (⟨done.reverse⟩, rest)
    | _ => match stringPoint? cs with
      | some (point, rest) => readString (point :: done) fuel rest
      | none => none

/-- Whether a character can be part of a number. -/
def isNumberChar (c : Char) : Bool :=
  c.isDigit || c = '-' || c = '+' || c = '.' || c = 'e' || c = 'E'

/-- A number and what follows it. -/
def readNumber (cs : List Char) : Option (Json × List Char) :=
  let spelled := cs.takeWhile isNumberChar
  let rest := cs.drop spelled.length
  if spelled.all fun c => c.isDigit || c = '-' then (readInt? 10 spelled).map fun n => (.int n, rest)
  else (readFloat? spelled).map fun x => (.float x, rest)

/-- A value that is neither an array nor an object, and what follows it. -/
def readScalar (fuel : Nat) (cs : List Char) : Option (Json × List Char) :=
  match cs with
  | '"' :: rest => (readString [] fuel rest).map fun (s, after) => (.str s, after)
  | 'n' :: _ => (afterWord? "null".toList cs).map (.null, ·)
  | 't' :: _ => (afterWord? "true".toList cs).map (.bool true, ·)
  | 'f' :: _ => (afterWord? "false".toList cs).map (.bool false, ·)
  | 'N' :: _ => (afterWord? "NaN".toList cs).map (.float .nan, ·)
  | 'I' :: _ => (afterWord? "Infinity".toList cs).map (.float (.infinity false), ·)
  | '-' :: 'I' :: _ => (afterWord? "-Infinity".toList cs).map (.float (.infinity true), ·)
  | _ => readNumber cs

mutual

/-- A value and what follows it. -/
def readValue : (fuel : Nat) → List Char → Option (Json × List Char)
  | 0, _ => none
  | fuel + 1, cs =>
    match skipSpace cs with
    | '[' :: rest =>
      match skipSpace rest with
      | ']' :: after => some (.arr [], after)
      | _ => (readItems fuel rest).map fun (items, after) => (.arr items, after)
    | '{' :: rest =>
      match skipSpace rest with
      | '}' :: after => some (.obj [], after)
      | _ => (readMembers fuel rest).map fun (members, after) => (.obj members, after)
    | start => readScalar fuel start

/-- The items of an array up to its closing bracket, and what follows. -/
def readItems : (fuel : Nat) → List Char → Option (List Json × List Char)
  | 0, _ => none
  | fuel + 1, cs => do
    let (item, rest) ← readValue fuel cs
    match skipSpace rest with
    | ',' :: more =>
      let (items, after) ← readItems fuel more
      some (item :: items, after)
    | ']' :: after => some ([item], after)
    | _ => none

/-- The members of an object up to its closing brace, and what follows. -/
def readMembers : (fuel : Nat) → List Char → Option (List (RawText × Json) × List Char)
  | 0, _ => none
  | fuel + 1, cs =>
    match skipSpace cs with
    | '"' :: start => do
      let (name, rest) ← readString [] fuel start
      match skipSpace rest with
      | ':' :: more =>
        let (value, rest) ← readValue fuel more
        match skipSpace rest with
        | ',' :: more =>
          let (members, after) ← readMembers fuel more
          some ((name, value) :: members, after)
        | '}' :: after => some ([(name, value)], after)
        | _ => none
      | _ => none
    | _ => none

end

/-- The document that a whole text spells. A character is read by every other call at least, so twice the length
    of the text bounds the depth of the calls. -/
def parse (s : String) : Option Json :=
  let cs := s.toList
  match readValue (2 * cs.length + 2) cs with
  | some (document, rest) => if (skipSpace rest).isEmpty then some document else none
  | none => none

end SolidityLint.Json

import SolidityLint.Bytes.Base64
import SolidityLint.Number.Reading
import SolidityLint.Text.Split
import SolidityLint.Yaml.Tag

/-! The values of scalars by their tags. -/

namespace SolidityLint.Yaml

open Text Number

/-- Whether a word for a truth value says yes; nothing if a text is no such word. -/
def truthValue? (text : RawText) : Option Bool :=
  let word := text.lower
  if ["yes", "true", "on"].any fun (yes : String) => word = yes then some true
  else if ["no", "false", "off"].any fun (no : String) => word = no then some false
  else none

/-- The text without underscores. -/
def dropUnderscores (text : RawText) : RawText :=
  ⟨text.points.filter (· ≠ .char '_')⟩

/-- Splits a sign off the front of a text. -/
def takeSign (text : RawText) : Bool × RawText :=
  match text.points with
  | .char '-' :: rest => (true, ⟨rest⟩)
  | .char '+' :: rest => (false, ⟨rest⟩)
  | _ => (false, text)

/-- The groups of a text between its colons. -/
def colonGroups (text : RawText) : List RawText :=
  (splitOn (.char ':') text.points).map RawText.mk

/-- Whether a text has groups. -/
def hasColon (text : RawText) : Bool :=
  text.points.contains (.char ':')

/-! ### Whole numbers -/

/-- The whole number that a text spells in a base. Only in base ten is the number of digits limited, and digits
    count there even in front of what is no digit. -/
def integerIn (base : Nat) (text : RawText) : Except Error Int :=
  let digits := leadingDigits text.chars
  if base = 10 ∧ digitLimit < digits then .error (.integerTooLong digits)
  else match readInt? base text.chars with
    | some n => .ok n
    | none => .error (.notInteger base text)

/-- The whole number of groups in base sixty. -/
def sexagesimal (groups : List RawText) : Except Error Int := do
  let digits ← groups.mapM (integerIn 10)
  return digits.foldl (fun n d => n * 60 + d) 0

/-- The size of a whole number: in base two, sixteen or eight by the mark in front, in base sixty if it has colons,
    and in base ten otherwise. -/
def integerSize (text : RawText) : Except Error Int :=
  match text.points with
  | [] => .error .emptyNumber
  | [.char '0'] => .ok 0
  | .char '0' :: .char 'b' :: rest => integerIn 2 ⟨rest⟩
  | .char '0' :: .char 'x' :: rest => integerIn 16 ⟨rest⟩
  | .char '0' :: _ => integerIn 8 text
  | _ => if hasColon text then sexagesimal (colonGroups text) else integerIn 10 text

/-- The value of a scalar with the tag of whole numbers. -/
def integer (text : RawText) : Except Error Int := do
  let (negative, text) := takeSign (dropUnderscores text)
  let size ← integerSize text
  return if negative then -size else size

/-! ### Numbers with a fraction -/

/-- The number with a fraction that a text spells. -/
def fractional (text : RawText) : Except Error Binary64 :=
  match readFloat? text.chars with
  | some x => .ok x
  | none => .error (.notFloat text)

/-- The largest number of groups in base sixty: the weight of one more would be beyond all doubles. -/
def groupLimit : Nat :=
  174

/-- Adds up groups in base sixty from the last to the first, in the arithmetic of doubles. -/
def sexagesimalSum (groups : List Binary64) : Except Error Binary64 :=
  if groupLimit < groups.length then .error .integerTooLarge
  else
    let (sum, _) := groups.reverse.foldl (fun (sum, base) x =>
      (sum + Float.ofBits x.bits * Float.ofNat base, base * 60)) ((0 : Float), (1 : Nat))
    .ok ⟨sum.toBits⟩

/-- A number with the sign bit turned. -/
def negate (x : Binary64) : Binary64 :=
  ⟨x.bits ^^^ 0x8000000000000000⟩

/-- The size of a number with a fraction. -/
def floatSize (text : RawText) : Except Error Binary64 := do
  if text = RawText.ofString ".inf" then return .infinity false
  if hasColon text then sexagesimalSum (← (colonGroups text).mapM fractional) else fractional text

/-- The value of a scalar with the tag of numbers with a fraction. The word for no number always means the same one;
    any other result that is no number belongs to the scalar with its `origin`. -/
def float (origin : Nat) (text : RawText) : Except Error Value := do
  let word := (dropUnderscores text).lower
  if word.isEmpty then throw .emptyNumber
  let (negative, text) := takeSign word
  if text = RawText.ofString ".nan" then return .float .nan 0
  let size ← floatSize text
  return .float (if negative then negate size else size) origin

def scalarValue (origin : Nat) (tag : Tag) (text : RawText) : Except Error Value :=
  match tag with
  | .null => .ok .null
  | .bool => match truthValue? text with
    | some b => .ok (.bool b)
    | none => .error (.notTruthValue text.lower)
  | .int => (integer text).map .int
  | .float => float origin text
  | .str => .ok (.str text)
  | .binary => match Base64.decode? text.chars with
    | some bytes => .ok (.bytes bytes)
    | none => .error .malformed
  | .timestamp => match Timestamp.parts? (Tag.dropNewline text.chars) with
    | some parts => Timestamp.value parts
    | none => .error .notTimestamp
  | _ => .error .malformed

end SolidityLint.Yaml

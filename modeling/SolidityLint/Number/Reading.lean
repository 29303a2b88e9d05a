import SolidityLint.Number.Binary64
import SolidityLint.Text.Blank
import SolidityLint.Text.Digit
import SolidityLint.Text.LowerCase

/-! Numbers in free text: white space around them is passed over, digits may be of any script, and a single
    underscore may stand between two digits. The four separators of ASCII are no white space here. -/

namespace SolidityLint.Number

open Text

/-- Whether a character is white space around a number. -/
def isMargin (c : Char) : Bool :=
  isBlank c && !(0x1C ≤ c.toNat && c.toNat ≤ 0x1F)

/-- The text without the white space at either end. -/
def dropMargins (cs : List Char) : List Char :=
  ((cs.dropWhile isMargin).reverse.dropWhile isMargin).reverse

/-- Splits a sign off the front of a text. -/
def splitSign : List Char → Bool × List Char
  | '-' :: rest => (true, rest)
  | '+' :: rest => (false, rest)
  | cs => (false, cs)

/-- Removes single underscores that stand between digits; nothing if one stands elsewhere. -/
def joinDigits (afterDigit : Bool) : List Char → Option (List Char)
  | [] => if afterDigit then some [] else none
  | c :: rest =>
    if c = '_' then if afterDigit then joinDigits false rest else none
    else (joinDigits true rest).map (c :: ·)

/-- The value of a run of digits in a base, which may not be empty. -/
def digitsValue? (base : Nat) (cs : List Char) : Option Nat :=
  (joinDigits false cs).bind fun digits =>
    digits.foldlM (fun n c => (digitIn? base c).map (n * base + ·)) 0

/-- Drops the mark of a base (`0b`, `0o` or `0x`) and an underscore after it. -/
def dropBaseMark (base : Nat) (cs : List Char) : List Char :=
  let afterMark (rest : List Char) : List Char := match rest with
    | '_' :: more => more
    | _ => rest
  match cs with
  | '0' :: m :: rest =>
    if (base = 2 ∧ m.toLower = 'b') ∨ (base = 8 ∧ m.toLower = 'o') ∨ (base = 16 ∧ m.toLower = 'x') then
      afterMark rest
    else cs
  | _ => cs

def readInt? (base : Nat) (cs : List Char) : Option Int :=
  let (negative, rest) := splitSign (dropMargins cs)
  (digitsValue? base (dropBaseMark base rest)).map fun n => if negative then -(n : Int) else n

/-- The number of decimal digits that a text starts with, behind white space and a sign. -/
def leadingDigits (cs : List Char) : Nat :=
  ((splitSign (dropMargins cs)).2.takeWhile fun c => (decimalDigit? c).isSome).length

/-- Replaces the decimal digits of all scripts by those of ASCII. -/
def plainDigits (cs : List Char) : List Char :=
  cs.map fun c => match decimalDigit? c with
    | some d => Char.ofNat (48 + d)
    | none => c

/-- The number of digits that a text of digits and underscores spells and its value; both are zero if it is
    empty. -/
def digitRun? (cs : List Char) : Option (Nat × Nat) :=
  if cs.isEmpty then some (0, 0)
  else (joinDigits false cs).bind fun digits => (digitsValue? 10 digits).map fun n => (digits.length, n)

/-- The size spelled by digits with an optional fraction and exponent. -/
def readDecimal? (negative : Bool) (cs : List Char) : Option Binary64 := do
  let mantissa := cs.takeWhile fun c => c ≠ 'e' ∧ c ≠ 'E'
  let power ← match cs.drop mantissa.length with
    | [] => some 0
    | _ :: digits =>
      let (down, digits) := splitSign digits
      (digitsValue? 10 digits).map fun n => if down then -(n : Int) else n
  let whole := mantissa.takeWhile (· ≠ '.')
  let (wholeCount, wholeValue) ← digitRun? whole
  let (count, value) ← digitRun? ((mantissa.drop whole.length).drop 1)
  if wholeCount + count = 0 then none
  else some (.ofDecimal negative (wholeValue * tenTo count + value) (power - count))

/-- The double that a text spells: a decimal, or one of the words for infinity and for no number. -/
def readFloat? (cs : List Char) : Option Binary64 :=
  let (negative, rest) := splitSign (plainDigits (dropMargins cs))
  let word := String.ofList (lower rest)
  if word = "inf" ∨ word = "infinity" then some (.infinity negative)
  else if word = "nan" then some .nan
  else readDecimal? negative rest

end SolidityLint.Number

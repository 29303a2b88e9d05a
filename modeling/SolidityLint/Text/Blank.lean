import SolidityLint.Text.Raw

/-! White space, and text without the white space at its ends. The set is the Unicode property together with the
    four separators that follow it in ASCII. -/

namespace SolidityLint.Text

/-- Whether a character is white space. -/
def isBlank (c : Char) : Bool :=
  let n := c.toNat
  (9 ≤ n && n ≤ 13) || (28 ≤ n && n ≤ 32) || n = 0x85 || n = 0xA0 || n = 0x1680 || (0x2000 ≤ n && n ≤ 0x200A) ||
    n = 0x2028 || n = 0x2029 || n = 0x202F || n = 0x205F || n = 0x3000

/-- The text without the white space it starts with. -/
def trimStart (cs : List Char) : List Char :=
  cs.dropWhile isBlank

/-- The text without the white space it ends with. -/
def trimEnd (cs : List Char) : List Char :=
  (cs.reverse.dropWhile isBlank).reverse

/-- The text without the white space at either end. -/
def trim (cs : List Char) : List Char :=
  trimEnd (trimStart cs)

end SolidityLint.Text

namespace SolidityLint

/-- Whether a code point is white space. -/
def CodePoint.isBlank : CodePoint → Bool
  | .char c => Text.isBlank c
  | .half _ => false

/-- The text without the white space at either end. -/
def RawText.trim (s : RawText) : RawText :=
  ⟨((s.points.dropWhile CodePoint.isBlank).reverse.dropWhile CodePoint.isBlank).reverse⟩

/-- Whether a text is made of white space only. -/
def RawText.isBlank (s : RawText) : Bool :=
  s.points.all CodePoint.isBlank

end SolidityLint

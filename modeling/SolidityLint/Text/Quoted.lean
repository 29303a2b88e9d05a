import SolidityLint.Text.Digit
import SolidityLint.Text.Printable
import SolidityLint.Text.Raw

/-! Quoted text. Single quotes are used unless the text has a single quote and no double quote; the quote, the
    backslash and what cannot be printed are escaped. -/

namespace SolidityLint.Text

/-- The quote that a text is put in. -/
def quoteFor (cs : List Char) : Char :=
  if cs.contains '\'' && !cs.contains '"' then '"' else '\''

/-- The escape of a code by its size: two, four or eight hexadecimal digits. -/
def codeEscape (code : Nat) : List Char :=
  if code < 0x100 then '\\' :: 'x' :: hexDigits 2 code
  else if code < 0x10000 then '\\' :: 'u' :: hexDigits 4 code
  else '\\' :: 'U' :: hexDigits 8 code

/-- The escapes that are the same in quoted text and in quoted bytes. -/
def commonEscape? (quote c : Char) : Option (List Char) :=
  if c = quote ∨ c = '\\' then some ['\\', c]
  else if c = '\n' then some ['\\', 'n']
  else if c = '\r' then some ['\\', 'r']
  else if c = '\t' then some ['\\', 't']
  else none

/-- A character as it stands inside quoted text. -/
def quotedChar (quote c : Char) : List Char :=
  (commonEscape? quote c).getD (if isPrintable c then [c] else codeEscape c.toNat)

/-- A code point as it stands inside quoted text. Half a pair is always escaped. -/
def quotedPoint (quote : Char) : CodePoint → List Char
  | .char c => quotedChar quote c
  | .half offset => codeEscape (CodePoint.half offset).code

def quoted (s : RawText) : List Char :=
  let quote := quoteFor s.chars
  quote :: s.points.flatMap (quotedPoint quote) ++ [quote]

def quotedByte (quote c : Char) : List Char :=
  (commonEscape? quote c).getD (if ' ' ≤ c ∧ c ≤ '~' then [c] else codeEscape c.toNat)

/-- Bytes in quotes, behind the letter that marks them. -/
def quotedBytes (bytes : List UInt8) : List Char :=
  let cs := bytes.map fun b => Char.ofNat b.toNat
  let quote := quoteFor cs
  'b' :: quote :: cs.flatMap (quotedByte quote) ++ [quote]

end SolidityLint.Text

import SolidityLint.Text.Digit
import SolidityLint.Yaml.Cursor
import SolidityLint.Yaml.Token.Basic

/-! Reading anchors, aliases, tags and directives. -/

namespace SolidityLint.Yaml.Token

/-- A name, which may not be empty, and the place behind it. -/
def readName (cursor : Cursor) : Except Error (List Char × Cursor) := do
  let (name, after) ← cursor.takeWhile isNameChar
  if name.isEmpty then throw .malformed else return (name, after)

/-- The marks that may follow a name directly. -/
def marksAfterName : List Char :=
  ['?', ':', ',', ']', '\x7d', '%', '@', '\x60']

/-- The name of an anchor or an alias behind its mark. -/
def readAnchorName (cursor : Cursor) : Except Error (List Char × Cursor) := do
  let (name, after) ← readName cursor
  if isSpaceOrEnd after.head? || after.head?.any marksAfterName.contains then return (name, after)
  else throw .malformed

/-! ### Tags -/

/-- Whether a character can be part of the suffix of a tag. -/
def isUriChar (c : Char) : Bool :=
  c.isAlphanum || "-;/?:@&=+$,_.!~*'()[]%".toList.contains c

/-- The value of the hexadecimal digits that follow; what comes behind the first other character is not looked
    at. -/
def hexValue (cursor : Cursor) (width : Nat) : Except Error Nat :=
  (List.range width).foldlM (fun code place => do
    match (← cursor.look place).bind Text.hexDigit? with
    | some digit => return code * 16 + digit
    | none => throw .malformed) 0

/-- The bytes of a run of percent escapes, and the place behind them. -/
def readPercent (done : List UInt8) (cursor : Cursor) : (fuel : Nat) → Except Error (List UInt8 × Cursor)
  | 0 => .error .malformed
  | fuel + 1 => do
    if cursor.head? = some '%' then
      let after ← cursor.next
      let code ← hexValue after 2
      readPercent (code.toUInt8 :: done) (← after.advance 2) fuel
    else return (done.reverse, cursor)

/-- The suffix of a tag, and the place behind it; `done` is what was read, backwards. -/
def readUriFrom (done : List Char) (cursor : Cursor) : (fuel : Nat) → Except Error (List Char × Cursor)
  | 0 => .error .malformed
  | fuel + 1 => do
    if cursor.head? = some '%' then
      let (bytes, after) ← readPercent [] cursor fuel
      match Utf8.decodeStrict bytes with
      | .ok cs => readUriFrom (cs.reverse ++ done) after fuel
      | .error _ => throw .malformed
    else
      let (run, after) ← cursor.takeWhile fun c => isUriChar c && c ≠ '%'
      if run.isEmpty then return (done.reverse, after) else readUriFrom (run.reverse ++ done) after fuel

/-- The suffix of a tag, which may not be empty, and the place behind it. -/
def readUri (fuel : Nat) (cursor : Cursor) : Except Error (List Char × Cursor) := do
  let (uri, after) ← readUriFrom [] cursor fuel
  if after.index = cursor.index then throw .malformed else return (uri, after)

/-- The handle of a tag, which stands between exclamation marks, and the place behind it. A single mark in front
    of a blank is a handle too. -/
def readHandle (cursor : Cursor) : Except Error (List Char × Cursor) := do
  if cursor.head? ≠ some '!' then throw .malformed
  let inner ← cursor.next
  if inner.head? = some ' ' then return (['!'], inner)
  let (name, after) ← inner.takeWhile isNameChar
  if after.head? = some '!' then return ('!' :: name ++ ['!'], ← after.next) else throw .malformed

/-- Whether an exclamation mark stands in front of the next blank or line end; a tab is no blank here. -/
def hasHandle (cursor : Cursor) : Except Error Bool := do
  let after ← cursor.skipWhile fun c => c ≠ ' ' && !isBreak c && c ≠ '!'
  return after.head? = some '!'

/-- The name of a tag: its handle, if it has one, and its suffix, and the place behind it. -/
def readTagName (fuel : Nat) (cursor : Cursor) : Except Error (Option (List Char) × List Char × Cursor) := do
  let inner ← cursor.next
  if inner.head? = some '<' then
    let (uri, after) ← readUri fuel (← inner.next)
    if after.head? = some '>' then return (none, uri, ← after.next) else throw .malformed
  else if isSpaceOrEnd inner.head? then return (none, ['!'], inner)
  else if ← hasHandle inner then
    let (handle, after) ← readHandle cursor
    let (uri, after) ← readUri fuel after
    return (some handle, uri, after)
  else
    let (uri, after) ← readUri fuel inner
    return (some ['!'], uri, after)

/-- A tag and the place behind it. -/
def readTag (fuel : Nat) (cursor : Cursor) : Except Error (Token × Cursor) := do
  let (handle, suffix, after) ← readTagName fuel cursor
  if isPlainSpaceOrEnd after.head? then return (.tag handle suffix, after) else throw .malformed

/-! ### Directives -/

/-- A whole number and the place behind it. -/
def readNumber (cursor : Cursor) : Except Error (Nat × Cursor) := do
  let (digits, after) ← cursor.takeWhile Char.isDigit
  if digits.isEmpty then throw .malformed
  if digitLimit < digits.length then throw (.integerTooLong digits.length)
  return (digits.foldl (fun n c => n * 10 + (c.toNat - 48)) 0, after)

/-- The place behind blanks. -/
def skipBlanks (cursor : Cursor) : Except Error Cursor :=
  cursor.skipWhile (· = ' ')

def readVersion (cursor : Cursor) : Except Error (Directive × Cursor) := do
  let (major, after) ← readNumber (← skipBlanks cursor)
  if after.head? ≠ some '.' then throw .malformed
  let (minor, after) ← readNumber (← after.next)
  if isPlainSpaceOrEnd after.head? then return (.version major minor, after) else throw .malformed

/-- The handle and the expansion of a tag directive. -/
def readTagHandle (fuel : Nat) (cursor : Cursor) : Except Error (Directive × Cursor) := do
  let (handle, after) ← readHandle (← skipBlanks cursor)
  if after.head? ≠ some ' ' then throw .malformed
  let (expansion, after) ← readUri fuel (← skipBlanks after)
  if isPlainSpaceOrEnd after.head? then return (.tagHandle handle expansion, after) else throw .malformed

/-- What a directive with a name says. -/
def readDirectiveContent (fuel : Nat) (name : List Char) (cursor : Cursor) : Except Error (Directive × Cursor) :=
  if name = "YAML".toList then readVersion cursor
  else if name = "TAG".toList then readTagHandle fuel cursor
  else (cursor.skipWhile fun c => !isBreak c).map (.other, ·)

/-- A directive behind its mark, and the place behind its line. -/
def readDirective (fuel : Nat) (cursor : Cursor) : Except Error (Token × Cursor) := do
  let (name, after) ← readName cursor
  if !isPlainSpaceOrEnd after.head? then throw .malformed
  let (content, after) ← readDirectiveContent fuel name after
  return (.directive content, ← after.endLine)

end SolidityLint.Yaml.Token

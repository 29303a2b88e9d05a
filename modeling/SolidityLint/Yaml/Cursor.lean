import SolidityLint.Yaml.Input

/-! Places in the text of a document, and the classes of characters that its form depends on. The line ends of the
    text are newlines; a next-line character and the two Unicode separators end lines too. Whoever moves on or looks
    ahead meets the fault of the text, if the readable text ends there. -/

namespace SolidityLint.Yaml

/-- Whether a character ends a line. -/
def isBreak (c : Char) : Bool :=
  c = '\n' || c = '\x85' || c = '\u2028' || c = '\u2029'

/-- Whether a character is a blank or ends a line. -/
def isSpace (c : Char) : Bool :=
  c = ' ' || c = '\t' || isBreak c

/-- Whether a blank is at a place, a line end, or the end of the text. -/
def isSpaceOrEnd : Option Char → Bool
  | none => true
  | some c => isSpace c

/-- Whether a plain blank is at a place, a line end, or the end of the text; a tab is none. -/
def isPlainSpaceOrEnd : Option Char → Bool
  | none => true
  | some c => c = ' ' || isBreak c

/-- Whether a character can be part of a name. -/
def isNameChar (c : Char) : Bool :=
  c.isAlphanum || c = '-' || c = '_'

/-- A place in a text: what follows, the fault behind that, how much came before, and the line and the column,
    counted from zero. -/
structure Cursor where
  rest : List Char
  fault? : Option Error
  index : Nat
  line : Nat
  column : Nat

namespace Cursor

/-- The character at a place, if the text goes on. -/
def head? (cursor : Cursor) : Option Char :=
  cursor.rest.head?

/-- The character that comes after a number of others, if the text goes on that far. -/
def look (cursor : Cursor) (count : Nat) : Except Error (Option Char) :=
  match cursor.rest.drop count, cursor.fault? with
  | c :: _, _ => .ok (some c)
  | [], some e => .error e
  | [], none => .ok none

/-- The place behind the next character. A byte order mark takes no column. -/
def step (cursor : Cursor) : Cursor :=
  match cursor.rest with
  | [] => cursor
  | c :: rest =>
    if isBreak c then { cursor with rest, index := cursor.index + 1, line := cursor.line + 1, column := 0 }
    else { cursor with rest, index := cursor.index + 1,
                       column := if c = '\uFEFF' then cursor.column else cursor.column + 1 }

/-- The place behind a number of characters. -/
def steps (cursor : Cursor) : Nat → Cursor
  | 0 => cursor
  | count + 1 => cursor.step.steps count

/-- Moves on by a number of characters, to where the text has to be readable. -/
def advance (cursor : Cursor) (count : Nat) : Except Error Cursor := do
  let _ ← cursor.look count
  return cursor.steps count

/-- Moves on by a character. -/
def next (cursor : Cursor) : Except Error Cursor :=
  cursor.advance 1

/-- The start of a text, behind a byte order mark. -/
def start (input : Input) : Except Error Cursor := do
  let cursor : Cursor := ⟨input.text, input.fault?, 0, 0, 0⟩
  if (← cursor.look 0) = some '\uFEFF' then cursor.next else return cursor

/-- The run of characters with a property that follows, and the place behind it. -/
def takeWhile (cursor : Cursor) (p : Char → Bool) : Except Error (List Char × Cursor) := do
  let run := cursor.rest.takeWhile p
  return (run, ← cursor.advance run.length)

/-- The place behind a run of characters with a property. -/
def skipWhile (cursor : Cursor) (p : Char → Bool) : Except Error Cursor :=
  (cursor.takeWhile p).map (·.2)

/-- The line end that follows, as it counts in text, and the place behind it. -/
def lineBreak? (cursor : Cursor) : Except Error (Option (Char × Cursor)) := do
  match cursor.head? with
  | some c => if isBreak c then return some (if c = '\x85' then '\n' else c, ← cursor.next) else return none
  | none => return none

/-- The place behind a comment, if one follows. -/
def skipComment (cursor : Cursor) : Except Error Cursor :=
  if cursor.head? = some '#' then cursor.skipWhile fun c => !isBreak c else .ok cursor

/-- The place behind the rest of a line that holds at most a comment. -/
def endLine (cursor : Cursor) : Except Error Cursor := do
  let after ← (← cursor.skipWhile (· = ' ')).skipComment
  match after.head?, ← after.lineBreak? with
  | none, _ => return after
  | _, some (_, after) => return after
  | _, none => throw .malformed

/-- Whether three equal marks that separate documents follow. -/
def atSeparator (cursor : Cursor) : Except Error Bool := do
  let _ ← cursor.look 2
  if cursor.rest.take 3 = ['-', '-', '-'] || cursor.rest.take 3 = ['.', '.', '.'] then
    return isSpaceOrEnd (← cursor.look 3)
  else return false

end Cursor

end SolidityLint.Yaml

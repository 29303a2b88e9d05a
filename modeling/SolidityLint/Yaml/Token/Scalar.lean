import SolidityLint.Yaml.Token.Tag

/-! Reading the text of scalars: plain, in quotes, and in indented blocks. Every function takes a place in the text
    and gives the text of the scalar with the place behind it. A `fuel` of at least the length of the text bounds
    the steps of each loop. -/

namespace SolidityLint.Yaml.Scalar

/-! ### Folding of lines -/

/-- What a line end and the empty lines behind it become when lines are folded: a blank for a single newline, and
    otherwise the empty lines, behind the line end itself if it is no newline. -/
def folded (first : Char) (breaks : List Char) : List Char :=
  if first ≠ '\n' then first :: breaks
  else if breaks.isEmpty then [' '] else breaks

/-! ### Plain scalars -/

/-- Whether a plain scalar stops in front of a colon, given the character behind the colon. -/
def colonStops (inFlow : Bool) (after : Option Char) : Bool :=
  isSpaceOrEnd after || (inFlow && after.any [',', '[', ']', '\x7b', '\x7d'].contains)

/-- Whether a plain scalar stops in front of a character whatever comes behind it. -/
def stopsPlain (inFlow : Bool) (c : Char) : Bool :=
  isSpace c || (inFlow && [',', '?', '[', ']', '\x7b', '\x7d'].contains c)

/-- The characters up to where a plain scalar stops, and the place behind them; `done` is what was read,
    backwards. -/
def plainRun (inFlow : Bool) (done : List Char) (cursor : Cursor) : (fuel : Nat) → Except Error (List Char × Cursor)
  | 0 => .error .malformed
  | fuel + 1 => do
    match cursor.head? with
    | none => return (done.reverse, cursor)
    | some c =>
      if stopsPlain inFlow c then return (done.reverse, cursor)
      else if c = ':' && colonStops inFlow (← cursor.look 1) then return (done.reverse, cursor)
      else plainRun inFlow (c :: done) (← cursor.next) fuel

/-- The line ends among blanks and line ends, or nothing if a document separator follows one of them; `done` is
    what was read, backwards. -/
def plainBreaks (done : List Char) (cursor : Cursor) : (fuel : Nat) → Except Error (Option (List Char) × Cursor)
  | 0 => .error .malformed
  | fuel + 1 => do
    if cursor.head? = some ' ' then plainBreaks done (← cursor.next) fuel
    else match ← cursor.lineBreak? with
      | none => return (some done.reverse, cursor)
      | some (c, after) =>
        if ← after.atSeparator then return (none, after) else plainBreaks (c :: done) after fuel

/-- The white space inside a plain scalar: its text (empty if the scalar ends here), the place behind it, and
    whether it has a line end. -/
def plainSpace (fuel : Nat) (cursor : Cursor) : Except Error (List Char × Cursor × Bool) := do
  let (blanks, afterBlanks) ← cursor.takeWhile (· = ' ')
  match ← afterBlanks.lineBreak? with
  | none => return (blanks, afterBlanks, false)
  | some (first, after) =>
    if ← after.atSeparator then return ([], after, true)
    match ← plainBreaks [] after fuel with
    | (none, after) => return ([], after, true)
    | (some breaks, after) => return (folded first breaks, after, true)

/-- A plain scalar. `keyAllowed` says whether a key may follow, which a line end inside the white space allows;
    `space` is the white space in front of the next run, and `done` what was read, backwards. -/
def plain (inFlow : Bool) (indent : Int) (keyAllowed : Bool) (space done : List Char) (cursor : Cursor) :
    (fuel : Nat) → Except Error (List Char × Cursor × Bool)
  | 0 => .error .malformed
  | fuel + 1 => do
    let (run, after) : List Char × Cursor ←
      if cursor.head? = some '#' then pure ([], cursor) else plainRun inFlow [] cursor fuel
    if run.isEmpty then return (done.reverse, cursor, keyAllowed)
    let done := run.reverse ++ (space.reverse ++ done)
    let (space, after, hasBreak) ← plainSpace fuel after
    if space.isEmpty || after.head? = some '#' || (!inFlow && (after.column : Int) < indent) then
      return (done.reverse, after, hasBreak)
    else plain inFlow indent hasBreak space done after fuel

/-! ### Scalars in quotes -/

def shortEscape? : Char → Option Char
  | '0' => some (Char.ofNat 0)
  | 'a' => some '\x07'
  | 'b' => some '\x08'
  | 't' => some '\t'
  | '\t' => some '\t'
  | 'n' => some '\n'
  | 'v' => some '\x0b'
  | 'f' => some '\x0c'
  | 'r' => some '\r'
  | 'e' => some '\x1b'
  | ' ' => some ' '
  | '"' => some '"'
  | '\\' => some '\\'
  | '/' => some '/'
  | 'N' => some '\x85'
  | '_' => some '\xa0'
  | 'L' => some '\u2028'
  | 'P' => some '\u2029'
  | _ => none

/-- The number of digits of a numeric escape. -/
def escapeWidth? : Char → Option Nat
  | 'x' => some 2
  | 'u' => some 4
  | 'U' => some 8
  | _ => none

def pointOfCode (code : Nat) : Except Error CodePoint :=
  if 0x7FFFFFFF < code then .error .codeTooLarge
  else if 0x10FFFF < code then .error .codeOutOfRange
  else .ok (.ofCode code)

/-- The line ends at the start of lines of a scalar in quotes, with blanks and tabs passed over; `done` is what was
    read, backwards. A document separator is a fault. -/
def quotedBreaks (done : List Char) (cursor : Cursor) : (fuel : Nat) → Except Error (List Char × Cursor)
  | 0 => .error .malformed
  | fuel + 1 => do
    if ← cursor.atSeparator then throw .malformed
    let after ← cursor.skipWhile fun c => c = ' ' || c = '\t'
    match ← after.lineBreak? with
    | some (c, after) => quotedBreaks (c :: done) after fuel
    | none => return (done.reverse, after)

/-- The white space inside a scalar in quotes, folded, and the place behind it. -/
def quotedSpace (fuel : Nat) (cursor : Cursor) : Except Error (List Char × Cursor) := do
  let (blanks, afterBlanks) ← cursor.takeWhile fun c => c = ' ' || c = '\t'
  if afterBlanks.head?.isNone then throw .malformed
  match ← afterBlanks.lineBreak? with
  | none => return (blanks, afterBlanks)
  | some (first, after) =>
    let (breaks, after) ← quotedBreaks [] after fuel
    return (folded first breaks, after)

/-- The text of an escape, given the place behind the backslash, and the place behind it. -/
def quotedEscape (fuel : Nat) (cursor : Cursor) : Except Error (List CodePoint × Cursor) := do
  match cursor.head? with
  | none => throw .malformed
  | some c =>
    match shortEscape? c, escapeWidth? c with
    | some d, _ => return ([.char d], ← cursor.next)
    | none, some width =>
      let digits ← cursor.next
      let point ← pointOfCode (← Token.hexValue digits width)
      return ([point], ← digits.advance width)
    | none, none => match ← cursor.lineBreak? with
      | some (_, after) => (quotedBreaks [] after fuel).map fun (breaks, after) => (breaks.map .char, after)
      | none => throw .malformed

/-- The rest of a scalar behind its opening quote; `done` is what was read, backwards. A single quote is written
    twice between single quotes, and a backslash escapes between double quotes. -/
def quoted (quote : Char) (done : List CodePoint) (cursor : Cursor) :
    (fuel : Nat) → Except Error (List CodePoint × Cursor)
  | 0 => .error .malformed
  | fuel + 1 => do
    match cursor.head? with
    | none => throw .malformed
    | some c =>
      if c = quote then
        if quote = '\'' && (← cursor.look 1) = some '\'' then
          quoted quote (.char '\'' :: done) (← cursor.advance 2) fuel
        else return (done.reverse, ← cursor.next)
      else if quote = '"' && c = '\\' then
        let (points, after) ← quotedEscape fuel (← cursor.next)
        quoted quote (points.reverse ++ done) after fuel
      else if isSpace c then
        let (cs, after) ← quotedSpace fuel cursor
        quoted quote ((cs.map .char).reverse ++ done) after fuel
      else quoted quote (.char c :: done) (← cursor.next) fuel

/-! ### Scalars in blocks -/

/-- What becomes of the line ends at the end of a block. -/
inductive Chomping where
  | strip
  | clip
  | keep
  deriving DecidableEq

/-- The chomping that a sign asks for. -/
def chomping? : Char → Option Chomping
  | '+' => some .keep
  | '-' => some .strip
  | _ => none

/-- The indentation that a digit asks for. -/
def indentation? (c : Char) : Option Nat :=
  if c.isDigit then some (c.toNat - 48) else none

/-- The mark of a kind that follows, and the place behind it. -/
def headerMark {α : Type} (kind? : Char → Option α) (cursor : Cursor) : Except Error (Option α × Cursor) := do
  match cursor.head?.bind kind? with
  | some mark => return (some mark, ← cursor.next)
  | none => return (none, cursor)

/-- The indentation that a block asks for, and the place behind it; zero is a fault. -/
def headerDigit (cursor : Cursor) : Except Error (Option Nat × Cursor) :=
  if cursor.head? = some '0' then .error .malformed else headerMark indentation? cursor

/-- The chomping and the indentation behind the mark of a block, in either order, and the place behind them. -/
def blockHeader (cursor : Cursor) : Except Error (Chomping × Option Nat × Cursor) := do
  let (before, after) ← headerMark chomping? cursor
  let (increment, after) ← headerDigit after
  let (behind, after) ← if before.isNone && increment.isSome then headerMark chomping? after else pure (none, after)
  if isPlainSpaceOrEnd after.head? then return ((before.or behind).getD .clip, increment, after)
  else throw .malformed

/-- The line ends in front of the first line of a block, the place behind them and the blanks, and the largest
    column that the blanks reach; `done` is what was read, backwards. -/
def blockIndentation (done : List Char) (widest : Nat) (cursor : Cursor) :
    (fuel : Nat) → Except Error (List Char × Nat × Cursor)
  | 0 => .error .malformed
  | fuel + 1 => do
    if cursor.head? = some ' ' then
      let after ← cursor.next
      blockIndentation done (max widest after.column) after fuel
    else match ← cursor.lineBreak? with
      | some (c, after) => blockIndentation (c :: done) widest after fuel
      | none => return (done.reverse, widest, cursor)

/-- The place behind blanks up to a column. -/
def skipIndent (cursor : Cursor) (indent : Nat) : Except Error Cursor :=
  cursor.advance ((cursor.rest.take (indent - cursor.column)).takeWhile (· = ' ')).length

/-- The empty lines in front of the next line of a block and the place where that line starts; `done` is what was
    read, backwards. -/
def blockBreaks (indent : Nat) (done : List Char) (cursor : Cursor) :
    (fuel : Nat) → Except Error (List Char × Cursor)
  | 0 => .error .malformed
  | fuel + 1 => do
    let start ← skipIndent cursor indent
    match ← start.lineBreak? with
    | some (c, after) => blockBreaks indent (c :: done) after fuel
    | none => return (done.reverse, start)

/-- Whether text of a block follows: the column is that of the block and the text goes on. -/
def inBlock (indent : Nat) (cursor : Cursor) : Bool :=
  cursor.column = indent && cursor.head?.isSome

/-- Whether a blank or a tab follows. -/
def atBlank (cursor : Cursor) : Bool :=
  cursor.head? = some ' ' || cursor.head? = some '\t'

/-- The lines of a block. `breaks` are the empty lines in front of the next line and `done` is what was read,
    backwards. The result is the text up to the last line, the end of that line, the empty lines behind it, and the
    place behind them. -/
def blockLines (isFolded : Bool) (indent : Nat) (breaks done lineEnd : List Char) (cursor : Cursor) :
    (fuel : Nat) → Except Error (List Char × List Char × List Char × Cursor)
  | 0 => .error .malformed
  | fuel + 1 => do
    if !inBlock indent cursor then return (done.reverse, lineEnd, breaks, cursor)
    let startsBlank := atBlank cursor
    let (line, afterLine) ← cursor.takeWhile fun c => !isBreak c
    let done := line.reverse ++ (breaks.reverse ++ done)
    let (lineEnd, afterEnd) : List Char × Cursor := match ← afterLine.lineBreak? with
      | some (c, after) => ([c], after)
      | none => ([], afterLine)
    let (breaks, after) ← blockBreaks indent [] afterEnd fuel
    if inBlock indent after then
      let between : List Char :=
        if isFolded && lineEnd = ['\n'] && !startsBlank && !atBlank after then
          if breaks.isEmpty then [' '] else []
        else lineEnd
      blockLines isFolded indent breaks (between.reverse ++ done) lineEnd after fuel
    else return (done.reverse, lineEnd, breaks, after)

/-- A scalar in a block, given the place behind its mark and the indentation of what surrounds it. -/
def block (isFolded : Bool) (outer : Int) (fuel : Nat) (cursor : Cursor) : Except Error (List Char × Cursor) := do
  let (chomping, increment, after) ← blockHeader cursor
  let after ← after.endLine
  let least := max (outer + 1) 1 |>.toNat
  let (breaks, indent, start) : List Char × Nat × Cursor ← match increment with
    | none => do
      let (breaks, widest, start) ← blockIndentation [] 0 after fuel
      pure (breaks, max least widest, start)
    | some n => do
      let (breaks, start) ← blockBreaks (least + n - 1) [] after fuel
      pure (breaks, least + n - 1, start)
  let (text, lineEnd, breaks, after) ← blockLines isFolded indent breaks [] [] start fuel
  return match chomping with
    | .strip => (text, after)
    | .clip => (text ++ lineEnd, after)
    | .keep => (text ++ lineEnd ++ breaks, after)

end SolidityLint.Yaml.Scalar

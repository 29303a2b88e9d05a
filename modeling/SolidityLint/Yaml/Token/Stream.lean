import SolidityLint.Yaml.Token.Scalar

/-! The tokens of a text. Blocks are made by indentation, so the state of the reading holds the columns of the open
    blocks. A key is only known as such when its colon is reached; until then its place is kept, and the tokens for
    the key are put in front of it afterwards. Tokens are given out only when nothing can be put in front of them any
    more, so a fault comes in front of those that still wait when it is met. -/

namespace SolidityLint.Yaml

/-- A place where a key may have started: the number of tokens in front of it and its place in the text. It is
    required if nothing but a key can stand there. -/
structure KeyPlace where
  tokens : Nat
  required : Bool
  index : Nat
  line : Nat
  column : Nat

/-- The state of the reading of tokens: the place in the text, the depth of flow collections, the column of the
    innermost block (minus one outside all) and of those around it, whether a key may start, the places where a
    key may have started by depth, the number of tokens given out, and the tokens that wait. -/
structure TokenReading where
  cursor : Cursor
  flowDepth : Nat := 0
  indent : Int := -1
  outerIndents : List Int := []
  keyAllowed : Bool := true
  keyPlaces : List (Nat × KeyPlace) := []
  given : Nat := 0
  waiting : Array Token := #[]

namespace TokenReading

/-- The number of tokens so far. -/
def count (r : TokenReading) : Nat :=
  r.given + r.waiting.size

/-- Adds a token. -/
def push (r : TokenReading) (token : Token) : TokenReading :=
  { r with waiting := r.waiting.push token }

/-- Puts a token at a position among all tokens, which has to be one of those that wait. -/
def insert (r : TokenReading) (position : Nat) (token : Token) : TokenReading :=
  { r with waiting := r.waiting.insertIdxIfInBounds (position - r.given) token }

/-- Adds a token that takes a number of characters. -/
def pushMark (r : TokenReading) (token : Token) (width : Nat) : Except Error TokenReading := do
  return { r with waiting := r.waiting.push token, cursor := ← r.cursor.advance width }

/-- Whether the place is outside all flow collections. -/
def inBlock (r : TokenReading) : Bool :=
  r.flowDepth = 0

/-! ### Places of keys -/

/-- Gives up places that are too far away: on another line, or more than 1024 characters back. -/
def dropStaleKeys (r : TokenReading) : Except Error TokenReading :=
  let isStale (place : KeyPlace) : Bool := place.line ≠ r.cursor.line || place.index + 1024 < r.cursor.index
  if r.keyPlaces.any fun entry => isStale entry.2 && entry.2.required then .error .malformed
  else .ok { r with keyPlaces := r.keyPlaces.filter fun entry => !isStale entry.2 }

/-- The place where a key may have started at the present depth. -/
def keyPlace? (r : TokenReading) : Option KeyPlace :=
  (r.keyPlaces.find? (·.1 = r.flowDepth)).map (·.2)

/-- Gives up the place at the present depth. -/
def dropKey (r : TokenReading) : Except Error TokenReading :=
  if (r.keyPlace?.map (·.required)).getD false then .error .malformed
  else .ok { r with keyPlaces := r.keyPlaces.filter (·.1 ≠ r.flowDepth) }

/-- Keeps the present place if a key may start here. -/
def saveKey (r : TokenReading) : Except Error TokenReading :=
  if r.keyAllowed then do
    let r ← r.dropKey
    let place : KeyPlace :=
      { tokens := r.count, required := r.inBlock && r.indent = r.cursor.column, index := r.cursor.index,
        line := r.cursor.line, column := r.cursor.column }
    return { r with keyPlaces := (r.flowDepth, place) :: r.keyPlaces }
  else .ok r

/-! ### Indentation -/

/-- Closes the blocks that are indented more than a column. -/
def closeBlocks (r : TokenReading) (column : Int) : TokenReading :=
  if r.inBlock then close r.waiting r.indent r.outerIndents else r
where
  /-- Closes blocks from the innermost outwards. -/
  close (waiting : Array Token) (indent : Int) : List Int → TokenReading
    | [] => { r with waiting, indent, outerIndents := [] }
    | outer :: rest =>
      if column < indent then close (waiting.push .blockEnd) outer rest
      else { r with waiting, indent, outerIndents := outer :: rest }

/-- Opens a block at a column if it is indented more than the innermost one; `start` is put at the given position
    among all tokens. -/
def openBlock (r : TokenReading) (column : Nat) (start : Token) (position : Nat) : TokenReading :=
  if r.indent < column then
    { r.insert position start with indent := column, outerIndents := r.indent :: r.outerIndents }
  else r

/-- The place of the next token: blanks, comments and line ends are passed over. A line end outside flow
    collections allows a key. -/
def skipToToken (r : TokenReading) : (fuel : Nat) → Except Error TokenReading
  | 0 => .ok r
  | fuel + 1 => do
    let after ← (← r.cursor.skipWhile (· = ' ')).skipComment
    match ← after.lineBreak? with
    | some (_, after) => skipToToken { r with cursor := after, keyAllowed := r.keyAllowed || r.inBlock } fuel
    | none => return { r with cursor := after }

/-! ### Tokens -/

/-- The end of the text. -/
def readEnd (r : TokenReading) : Except Error TokenReading := do
  let r ← (r.closeBlocks (-1)).dropKey
  return r.push .streamEnd

/-- A directive, or one of the marks between documents. -/
def readDocumentMark (r : TokenReading) (fuel : Nat) (first : Char) : Except Error TokenReading := do
  let r ← (r.closeBlocks (-1)).dropKey
  let r := { r with keyAllowed := false }
  if first = '%' then
    let (token, cursor) ← Token.readDirective fuel (← r.cursor.next)
    return { r.push token with cursor }
  else r.pushMark (if first = '-' then .documentStart else .documentEnd) 3

def readFlowStart (r : TokenReading) (token : Token) : Except Error TokenReading := do
  let r ← r.saveKey
  return { ← r.pushMark token 1 with flowDepth := r.flowDepth + 1, keyAllowed := true }

def readFlowEnd (r : TokenReading) (token : Token) : Except Error TokenReading := do
  let r ← r.dropKey
  return { ← r.pushMark token 1 with flowDepth := r.flowDepth - 1, keyAllowed := false }

/-- A comma in a flow collection. -/
def readFlowEntry (r : TokenReading) : Except Error TokenReading := do
  let r ← r.dropKey
  return { ← r.pushMark .flowEntry 1 with keyAllowed := true }

/-- Opens a block at the present column outside flow collections, where a token may stand only if a key may. -/
def openBlockHere (r : TokenReading) (start : Token) : Except Error TokenReading :=
  if !r.inBlock then .ok r
  else if r.keyAllowed then .ok (r.openBlock r.cursor.column start r.count)
  else .error .malformed

/-- The dash of a sequence entry. -/
def readBlockEntry (r : TokenReading) : Except Error TokenReading := do
  let r ← (← r.openBlockHere .blockSequenceStart).dropKey
  return { ← r.pushMark .blockEntry 1 with keyAllowed := true }

/-- The question mark in front of a key. -/
def readKey (r : TokenReading) : Except Error TokenReading := do
  let r ← r.openBlockHere .blockMappingStart
  let r ← { r with keyAllowed := r.inBlock }.dropKey
  r.pushMark .key 1

/-- The colon in front of a value. If a key may have started before, the tokens for it are put in front of it. -/
def readValue (r : TokenReading) : Except Error TokenReading := do
  match r.keyPlace? with
  | some place =>
    let r := { r.insert place.tokens .key with
      keyPlaces := r.keyPlaces.filter (·.1 ≠ r.flowDepth), keyAllowed := false }
    let r := if r.inBlock then r.openBlock place.column .blockMappingStart place.tokens else r
    r.pushMark .value 1
  | none =>
    let r ← r.openBlockHere .blockMappingStart
    let r ← { r with keyAllowed := r.inBlock }.dropKey
    r.pushMark .value 1

/-- An anchor or an alias. -/
def readAnchor (r : TokenReading) (make : List Char → Token) : Except Error TokenReading := do
  let r ← r.saveKey
  let (name, cursor) ← Token.readAnchorName (← r.cursor.next)
  return { r.push (make name) with cursor, keyAllowed := false }

def readTag (r : TokenReading) (fuel : Nat) : Except Error TokenReading := do
  let r ← r.saveKey
  let (token, cursor) ← Token.readTag fuel r.cursor
  return { r.push token with cursor, keyAllowed := false }

def readBlockScalar (r : TokenReading) (fuel : Nat) (isFolded : Bool) : Except Error TokenReading := do
  let r ← { r with keyAllowed := true }.dropKey
  let (text, cursor) ← Scalar.block isFolded r.indent fuel (← r.cursor.next)
  return { r.push (.scalar (.ofChars text) false) with cursor }

/-- A scalar in quotes. -/
def readQuoted (r : TokenReading) (fuel : Nat) (quote : Char) : Except Error TokenReading := do
  let r ← r.saveKey
  let (points, cursor) ← Scalar.quoted quote [] (← r.cursor.next) fuel
  return { r.push (.scalar ⟨points⟩ false) with cursor, keyAllowed := false }

/-- A plain scalar. -/
def readPlain (r : TokenReading) (fuel : Nat) : Except Error TokenReading := do
  let r ← r.saveKey
  let (text, cursor, keyAllowed) ← Scalar.plain (!r.inBlock) (r.indent + 1) false [] [] r.cursor fuel
  return { r.push (.scalar (.ofChars text) true) with cursor, keyAllowed }

/-- Whether a plain scalar starts with a character, which is looked at together with the next one if it is a mark. -/
def startsPlain (r : TokenReading) (c : Char) : Except Error Bool := do
  if isSpace c || "-?:,[]\x7b\x7d#&*!|>'\"%@\x60".toList.contains c then
    return !isSpaceOrEnd (← r.cursor.look 1) && (c = '-' || (r.inBlock && (c = '?' || c = ':')))
  else return true

/-- Whether a document separator follows, at a character that may start one. -/
def atSeparator (r : TokenReading) (c : Char) : Except Error Bool :=
  if r.cursor.column = 0 && (c = '-' || c = '.') then r.cursor.atSeparator else .ok false

/-- Whether a character is a mark with a space behind it, which the mark may do without if it is `free`. -/
def isMark (r : TokenReading) (mark : Char) (free : Bool) (c : Char) : Except Error Bool :=
  if c ≠ mark then .ok false
  else if free then .ok true
  else (r.cursor.look 1).map isSpaceOrEnd

/-- Reads the token that starts with a character. -/
def readTokenAt (r : TokenReading) (fuel : Nat) (c : Char) : Except Error TokenReading := do
  if r.cursor.column = 0 && c = '%' then r.readDocumentMark fuel c
  else if ← r.atSeparator c then r.readDocumentMark fuel c
  else if c = '[' then r.readFlowStart .flowSequenceStart
  else if c = '\x7b' then r.readFlowStart .flowMappingStart
  else if c = ']' then r.readFlowEnd .flowSequenceEnd
  else if c = '\x7d' then r.readFlowEnd .flowMappingEnd
  else if c = ',' then r.readFlowEntry
  else if ← r.isMark '-' false c then r.readBlockEntry
  else if ← r.isMark '?' (!r.inBlock) c then r.readKey
  else if ← r.isMark ':' (!r.inBlock) c then r.readValue
  else if c = '*' then r.readAnchor .alias
  else if c = '&' then r.readAnchor .anchor
  else if c = '!' then r.readTag fuel
  else if c = '|' && r.inBlock then r.readBlockScalar fuel false
  else if c = '>' && r.inBlock then r.readBlockScalar fuel true
  else if c = '\'' || c = '"' then r.readQuoted fuel c
  else if ← r.startsPlain c then r.readPlain fuel
  else throw .malformed

/-- Reads the next token, after what may stand in front of it was passed over. -/
def readToken (r : TokenReading) (fuel : Nat) : Except Error TokenReading := do
  let r ← (← r.skipToToken fuel).dropStaleKeys
  let r := r.closeBlocks r.cursor.column
  match r.cursor.head? with
  | none => r.readEnd
  | some c => (← r.readTokenAt fuel c).dropStaleKeys

/-- The number of tokens that nothing can be put in front of any more. -/
def settled (r : TokenReading) : Nat :=
  r.keyPlaces.foldl (fun count entry => min count entry.2.tokens) r.count

/-- Gives out tokens: those that are settled, and the state without them. -/
def giveOut (r : TokenReading) : List Token × TokenReading :=
  let settled := r.settled
  ((r.waiting.take (settled - r.given)).toList,
    { r with given := settled, waiting := r.waiting.drop (settled - r.given) })

/-- Reads tokens up to the end of the text or to a fault, which comes behind the tokens that are given out; `done` are
    those given out before, backwards. -/
def readAll (done : List Token) (r : TokenReading) (limit : Nat) : (fuel : Nat) → List Token
  | 0 => (Token.fault .malformed :: done).reverse
  | fuel + 1 =>
    let (ready, r) := r.giveOut
    let done := ready.reverse ++ done
    match r.readToken limit with
    | .error e => (Token.fault e :: done).reverse
    | .ok after =>
      if after.waiting.back? = some .streamEnd then (after.waiting.toList.reverse ++ done).reverse
      else readAll done after limit fuel

end TokenReading

/-- The tokens of a text. Every token but the last takes a character, so the length of the text bounds their
    number. -/
def Token.ofInput (input : Input) : List Token :=
  match Cursor.start input with
  | .error e => [.fault e]
  | .ok cursor =>
    let limit := input.text.length + 2
    TokenReading.readAll [] { cursor } limit limit

end SolidityLint.Yaml

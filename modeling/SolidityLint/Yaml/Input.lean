import SolidityLint.Text.Newlines
import SolidityLint.Yaml.Error

/-! The text of a document as it is read from bytes. Bytes are read in blocks and the text is taken up in pieces, so
    what is wrong with a piece counts only if the reading of the document gets that far. -/

namespace SolidityLint.Yaml

/-- The reading of text from bytes: the bytes to come, those that begin a character, whether a carriage return is
    held back because a newline may follow, the characters that are ready, and how many bytes the last block had
    for each of its characters. -/
structure TextReading where
  bytes : List UInt8
  begun : List UInt8 := []
  holdsReturn : Bool := false
  ready : List Char := []
  bytesPerChar : Float := 0

namespace TextReading

/-- The smallest number of bytes of a block that is not the last one. -/
def blockSize : Nat :=
  8192

/-- The number of bytes to read for a number of characters: as many as they would have had in the last block. -/
def blockSizeFor (r : TextReading) (wanted : Nat) : Nat :=
  let ratio := if r.bytesPerChar < 1 then 1 else r.bytesPerChar
  max blockSize (ratio * Float.ofNat wanted).floor.toUInt64.toNat

/-- Makes the characters of a block ready, with every line end written as a newline. -/
def readBlock (r : TextReading) (isLast : Bool) (block : List UInt8) : Except Utf8.DecodeError TextReading := do
  let (cs, begun) ← Utf8.decodePart isLast (r.begun ++ block)
  let cs := if r.holdsReturn && (isLast || !cs.isEmpty) then '\r' :: cs else cs
  let holds := cs.getLast? = some '\r' && !isLast
  let ready := Text.unifyNewlines (if holds then cs.dropLast else cs)
  return { r with
    begun, ready
    holdsReturn := holds || (r.holdsReturn && cs.isEmpty && !isLast)
    bytesPerChar := if ready.isEmpty then 0 else Float.ofNat block.length / Float.ofNat ready.length }

/-- Takes a number of characters, fewer at the end of the bytes. What becomes ready only there is left for later. -/
def take (r : TextReading) (wanted : Nat) : Except Utf8.DecodeError (List Char × TextReading) :=
  let now := r.ready.take wanted
  if now.length = wanted then .ok (now, { r with ready := r.ready.drop wanted })
  else if r.bytes.isEmpty then do
    let after ← r.readBlock true []
    return (now, after)
  else do
    let size := r.blockSizeFor (wanted - now.length)
    let after ← r.readBlock false (r.bytes.take size)
    let (more, after) ← take { after with bytes := r.bytes.drop size } (wanted - now.length)
    return (now ++ more, after)
termination_by r.bytes.length
decreasing_by
  rename_i nonempty
  have pos : 0 < r.bytes.length := List.length_pos_iff.mpr (by simpa using nonempty)
  have size : blockSize ≤ r.blockSizeFor (wanted - (r.ready.take wanted).length) := Nat.le_max_left _ _
  simp only [List.length_drop]
  unfold blockSize at size
  omega

end TextReading

/-- The text of a document up to the first piece that cannot be taken up, and what is wrong with that piece. -/
structure Input where
  text : List Char
  fault? : Option Error

namespace Input

/-- Whether a document may hold a character. -/
def isAllowed (c : Char) : Bool :=
  let n := c.toNat
  n = 0x09 || n = 0x0A || n = 0x0D || (0x20 ≤ n && n ≤ 0x7E) || n = 0x85 || (0xA0 ≤ n && n ≤ 0xFFFD) || 0x10000 ≤ n

/-- The number of characters of a piece that is not the last one. -/
def pieceSize : Nat :=
  4096

/-- The pieces of a text up to the first that cannot be read, and what is wrong with that one. -/
def pieces (r : TextReading) : (fuel : Nat) → List (List Char) × Option Error
  | 0 => ([], none)
  | fuel + 1 =>
    match r.take pieceSize with
    | .error e => ([], some (.undecodable e))
    | .ok (piece, after) =>
      if piece.isEmpty then ([], none)
      else
        let (rest, fault?) := pieces after fuel
        (piece :: rest, fault?)

/-- Puts pieces together up to the first that holds a character that may not be. -/
def ofPieces (fault? : Option Error) : List (List Char) → Input
  | [] => ⟨[], fault?⟩
  | piece :: rest =>
    if piece.all isAllowed then
      let input := ofPieces fault? rest
      ⟨piece ++ input.text, input.fault?⟩
    else ⟨[], some .malformed⟩

/-- The input of a document. The first two pieces are taken up together. -/
def ofBytes (bytes : List UInt8) : Input :=
  match pieces { bytes } (bytes.length + 2) with
  | ([], fault?) => ⟨[], fault?⟩
  | ([_], some e) => ⟨[], some e⟩
  | ([piece], none) => ofPieces none [piece]
  | (first :: second :: rest, fault?) => ofPieces fault? ((first ++ second) :: rest)

end Input

end SolidityLint.Yaml

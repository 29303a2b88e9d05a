/-! Text in UTF-8. An ill-formed part of the bytes is as long as it could still have become a character; reading
    either replaces each such part by one replacement character or refuses the bytes at the first one. -/

namespace SolidityLint.Utf8

/-- Why bytes are no character. -/
inductive Fault where
  | invalidStart
  | invalidContinuation
  | unexpectedEnd
  deriving DecidableEq

/-- What stands at the front of bytes, and how many bytes it takes. -/
inductive Step where
  | char (c : Char) (width : Nat)
  | fault (reason : Fault) (width : Nat)

/-- What the first byte of a longer character says: how many bytes follow, the range of the next one, and the bits
    of the code that it holds. -/
def lead? (b : Nat) : Option (Nat × Nat × Nat × Nat) :=
  if b < 0xC2 then none
  else if b < 0xE0 then some (1, 0x80, 0xBF, b - 0xC0)
  else if b = 0xE0 then some (2, 0xA0, 0xBF, 0)
  else if b = 0xED then some (2, 0x80, 0x9F, 0xD)
  else if b < 0xF0 then some (2, 0x80, 0xBF, b - 0xE0)
  else if b = 0xF0 then some (3, 0x90, 0xBF, 0)
  else if b < 0xF4 then some (3, 0x80, 0xBF, b - 0xF0)
  else if b = 0xF4 then some (3, 0x80, 0x8F, 4)
  else none

/-- Reads the bytes that follow a first byte; `low` and `high` bound the next one, `code` and `width` are what was
    read so far. -/
def continuation : (count low high code width : Nat) → List UInt8 → Step
  | 0, _, _, code, width, _ => .char (Char.ofNat code) width
  | _ + 1, _, _, _, width, [] => .fault .unexpectedEnd width
  | count + 1, low, high, code, width, b :: rest =>
    if low ≤ b.toNat ∧ b.toNat ≤ high then
      continuation count 0x80 0xBF (code * 64 + (b.toNat - 0x80)) (width + 1) rest
    else .fault .invalidContinuation width

/-- What stands at the front of bytes, of which there is at least one. -/
def step (b : UInt8) (rest : List UInt8) : Step :=
  if b.toNat < 0x80 then .char (Char.ofNat b.toNat) 1
  else match lead? b.toNat with
    | none => .fault .invalidStart 1
    | some (count, low, high, code) => continuation count low high code 1 rest

/-! ### Reading with replacement -/

/-- Reads all bytes; `done` is the text so far, backwards. -/
def decodeFrom (done : List Char) : List UInt8 → List Char
  | [] => done.reverse
  | b :: rest =>
    match step b rest with
    | .char c width => decodeFrom (c :: done) (rest.drop (width - 1))
    | .fault _ width => decodeFrom ('\uFFFD' :: done) (rest.drop (width - 1))
termination_by bytes => bytes.length
decreasing_by all_goals simp only [List.length_drop, List.length_cons]; omega

/-- The text of bytes, with one replacement character for each ill-formed part. -/
def decode (bytes : List UInt8) : List Char :=
  decodeFrom [] bytes

def encode (cs : List Char) : List UInt8 :=
  cs.flatMap String.utf8EncodeChar

/-! ### Reading with refusal -/

/-- The first ill-formed part of bytes: where it starts, its first byte, its length, and what is wrong. -/
structure DecodeError where
  position : Nat
  byte : UInt8
  width : Nat
  reason : Fault
  deriving DecidableEq

/-- Whether bytes are the beginning of half of a surrogate pair, which is never well-formed, and nothing more. -/
def isHalfBegun : List UInt8 → Bool
  | [first, second] => first = 0xED && 0xA0 ≤ second && second ≤ 0xBF
  | _ => false

/-- Reads the characters of bytes up to those that are only the beginning of one, or of half of a surrogate pair; these
    are left over unless the bytes are all there will be. `position` counts the bytes so far, and `done` is the text so
    far, backwards. -/
def decodePartFrom (isLast : Bool) (done : List Char) (position : Nat) :
    List UInt8 → Except DecodeError (List Char × List UInt8)
  | [] => .ok (done.reverse, [])
  | b :: rest =>
    match step b rest with
    | .char c width => decodePartFrom isLast (c :: done) (position + width) (rest.drop (width - 1))
    | .fault .unexpectedEnd width =>
      if isLast then .error ⟨position, b, width, .unexpectedEnd⟩ else .ok (done.reverse, b :: rest)
    | .fault reason width =>
      if !isLast && isHalfBegun (b :: rest) then .ok (done.reverse, b :: rest)
      else .error ⟨position, b, width, reason⟩
termination_by bytes => bytes.length
decreasing_by simp only [List.length_drop, List.length_cons]; omega

/-- The text of bytes and the bytes that are left over, or the first ill-formed part. -/
def decodePart (isLast : Bool) (bytes : List UInt8) : Except DecodeError (List Char × List UInt8) :=
  decodePartFrom isLast [] 0 bytes

/-- The text of bytes, or the first ill-formed part. -/
def decodeStrict (bytes : List UInt8) : Except DecodeError (List Char) :=
  (decodePart true bytes).map (·.1)

end SolidityLint.Utf8

/-! Bytes written in base 64. Characters that are no digits are passed over, and padding ends the data once it fills
    up the last group of four digits. -/

namespace SolidityLint.Base64

def digit? (c : Char) : Option Nat :=
  if c.isUpper then some (c.toNat - 65)
  else if c.isLower then some (c.toNat - 71)
  else if c.isDigit then some (c.toNat + 4)
  else if c = '+' then some 62
  else if c = '/' then some 63
  else none

/-- Reads what is left of the data: `place` digits of a group came before, of which `bits` are the bits still
    open, `pads` is the number of padding characters right in front, and `done` are the bytes so far, backwards. -/
def decodeFrom (place bits pads : Nat) (done : List UInt8) : List Char → Option (List UInt8)
  | [] => if place = 0 then some done.reverse else none
  | c :: rest =>
    if c = '=' then
      if 2 ≤ place ∧ 4 ≤ place + pads + 1 then some done.reverse
      else decodeFrom place bits (if 2 ≤ place then pads + 1 else pads) done rest
    else match digit? c with
      | none => decodeFrom place bits pads done rest
      | some d =>
        match place with
        | 0 => decodeFrom 1 d 0 done rest
        | 1 => decodeFrom 2 (d % 16) 0 ((bits * 4 + d / 16).toUInt8 :: done) rest
        | 2 => decodeFrom 3 (d % 4) 0 ((bits * 16 + d / 4).toUInt8 :: done) rest
        | _ => decodeFrom 0 0 0 ((bits * 64 + d).toUInt8 :: done) rest

/-- The bytes that a text of ASCII spells. -/
def decode? (cs : List Char) : Option (List UInt8) :=
  if cs.all fun c => c.toNat < 128 then decodeFrom 0 0 0 [] cs else none

end SolidityLint.Base64

import SolidityLint.Value.Basic

/-! The order of the members of a set. Numbers are put into the slots of a table by their remainders, one after
    another, and come in the order of the slots; equal numbers of different kinds have the same remainder. A set with
    other members keeps the order in which they were added. -/

namespace SolidityLint.Value

/-! ### Remainders -/

/-- The prime by which remainders are taken: one less than two to the power of 61, so a power of two has the remainder
    of the one whose exponent is less by 61. -/
def remainderPrime : Nat :=
  twoTo 61 - 1

/-- A remainder with its sign, in sixty-four bits. Minus one counts as minus two. -/
def signedRemainder (negative : Bool) (remainder : Nat) : Nat :=
  if negative && remainder ≠ 0 then twoTo 64 - max remainder 2 else remainder

/-- The remainder of a number with a fraction; infinity has one of its own. -/
def floatRemainder (x : Binary64) : Nat :=
  if x.isFinite then x.significand * twoTo (x.exponent % 61).toNat % remainderPrime else 314159

/-- The signed remainder of a number that equals itself. -/
def remainder? : Value → Option Nat
  | .bool b => some (if b then 1 else 0)
  | .int n => some (signedRemainder (n < 0) (n.natAbs % remainderPrime))
  | .float x _ => if x.isNaN then none else some (signedRemainder x.isNegative (floatRemainder x))
  | _ => none

/-! ### Slots -/

/-- The number of slots for a number of members: eight for up to four, otherwise the first power of two that is larger
    than twice the number. -/
def slotCount (members : Nat) : Nat :=
  if members ≤ 4 then 8 else twoTo ((2 * members).log2 + 1)

/-- The first free slot from a slot on: nine neighbours come first, if there are that many, and then a slot further on
    that depends on the other bits of the remainder. -/
def freeSlot? (table : Array (Option Value)) (slot bits : Nat) : (fuel : Nat) → Option Nat
  | 0 => none
  | fuel + 1 =>
    let neighbours := if slot + 9 < table.size then 9 else 0
    match ((List.range (neighbours + 1)).map (slot + ·)).find? fun near => (table.getD near none).isNone with
    | some free => some free
    | none => freeSlot? table ((slot * 5 + 1 + bits / 32) % table.size) (bits / 32) fuel

/-- Puts a member into the first free slot for its remainder. -/
def putInSlot (table : Array (Option Value)) (remainder : Nat) (member : Value) : Array (Option Value) :=
  match freeSlot? table (remainder % table.size) remainder (table.size + 16) with
  | some slot => table.setIfInBounds slot (some member)
  | none => table

/-- The members of a set in the order in which they are shown, given the order in which they were added. -/
def inSetOrder (members : List Value) : List Value :=
  match members.mapM fun member => member.remainder?.map (·, member) with
  | none => members
  | some numbered =>
    let empty : Array (Option Value) := Array.replicate (slotCount members.length) none
    let table := numbered.foldl (fun table (remainder, member) => putInSlot table remainder member) empty
    table.toList.filterMap id

end SolidityLint.Value

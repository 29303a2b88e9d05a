/-! Powers of the bases in which numbers are kept and written, and the limit of what is written. -/

namespace SolidityLint

/-- A power of two. -/
def twoTo (n : Nat) : Nat :=
  Nat.pow 2 n

/-- A power of ten. -/
def tenTo (n : Nat) : Nat :=
  Nat.pow 10 n

/-- The largest number of digits of a whole number that can be shown or read in base ten. -/
def digitLimit : Nat :=
  4300

/-- The first number with more digits than can be shown. -/
@[irreducible] def unshowableNumber : Nat :=
  tenTo digitLimit

end SolidityLint

import SolidityLint.Number.Power

/-! Double-precision numbers by their bits. A finite number is a sign, a whole significand and a power of two, and
    reading a ratio picks the nearest number, the even significand at a tie. All arithmetic is exact. -/

namespace SolidityLint

/-- A double-precision number, given by its sixty-four bits. -/
structure Binary64 where
  bits : UInt64
  deriving DecidableEq, Inhabited

namespace Binary64

/-- Whether the sign bit is set. -/
def isNegative (x : Binary64) : Bool :=
  x.bits.toNat / twoTo 63 = 1

/-- The eleven bits of the exponent. -/
def exponentField (x : Binary64) : Nat :=
  x.bits.toNat / twoTo 52 % twoTo 11

/-- The fifty-two bits of the fraction. -/
def fractionField (x : Binary64) : Nat :=
  x.bits.toNat % twoTo 52

def isFinite (x : Binary64) : Bool :=
  x.exponentField ≠ 2047

def isNaN (x : Binary64) : Bool :=
  x.exponentField = 2047 && x.fractionField ≠ 0

def isZero (x : Binary64) : Bool :=
  x.exponentField = 0 && x.fractionField = 0

/-- The significand `m` of a finite number, whose size is `m * 2 ^ e`. -/
def significand (x : Binary64) : Nat :=
  if x.exponentField = 0 then x.fractionField else twoTo 52 + x.fractionField

/-- The power of two `e` of a finite number, whose size is `m * 2 ^ e`. -/
def exponent (x : Binary64) : Int :=
  max (x.exponentField : Int) 1 - 1075

/-- A number from its sign, exponent field and fraction field. -/
def ofFields (negative : Bool) (exponentField fractionField : Nat) : Binary64 :=
  ⟨((if negative then twoTo 63 else 0) + exponentField * twoTo 52 + fractionField).toUInt64⟩

def infinity (negative : Bool) : Binary64 :=
  ofFields negative 2047 0

def nan : Binary64 :=
  ofFields false 2047 (twoTo 51)

/-- The size of a finite number as a ratio of natural numbers. -/
def ratio (x : Binary64) : Nat × Nat :=
  match x.exponent with
  | .ofNat e => (x.significand * twoTo e, 1)
  | .negSucc e => (x.significand, twoTo (e + 1))

/-- The quotient rounded to the nearest natural number, to the even one at a tie. -/
def roundHalfEven (num den : Nat) : Nat :=
  let q := num / den
  let twice := 2 * (num % den)
  if twice < den || (twice = den && q % 2 = 0) then q else q + 1

/-- The quotient of two natural numbers, the first scaled by a power of two, rounded to the nearest. -/
def scaledQuotient (num den : Nat) : Int → Nat
  | .ofNat e => roundHalfEven num (den * twoTo e)
  | .negSucc e => roundHalfEven (num * twoTo (e + 1)) den

/-- Whether the quotient is at least two to a power. -/
def atLeastPower (num den : Nat) : Int → Bool
  | .ofNat e => den * twoTo e ≤ num
  | .negSucc e => den ≤ num * twoTo (e + 1)

/-- The number nearest to the ratio of two natural numbers, the second not zero. -/
def ofRatio (negative : Bool) (num den : Nat) : Binary64 :=
  if num = 0 then ofFields negative 0 0
  else
    let guess : Int := (num.log2 : Int) - den.log2
    let top : Int := if atLeastPower num den guess then guess else guess - 1
    let e : Int := max (top - 52) (-1074)
    let m := scaledQuotient num den e
    let (m, e) := if m = twoTo 53 then (twoTo 52, e + 1) else (m, e)
    if m < twoTo 52 then ofFields negative 0 m
    else if 971 < e then infinity negative
    else ofFields negative (e + 1075).toNat (m - twoTo 52)

/-- The number nearest to `digits * 10 ^ power`. Powers far outside the range of the type are settled by the
    number of digits alone. -/
def ofDecimal (negative : Bool) (digits : Nat) (power : Int) : Binary64 :=
  if digits = 0 then ofFields negative 0 0
  else
    let size : Int := (Nat.toDigits 10 digits).length + power
    if 400 < size then infinity negative
    else if size < -400 then ofFields negative 0 0
    else match power with
      | .ofNat p => ofRatio negative (digits * tenTo p) 1
      | .negSucc p => ofRatio negative digits (tenTo (p + 1))

/-- Whether a finite number equals a whole number. -/
def equalsInt (x : Binary64) (n : Int) : Bool :=
  let (num, den) := x.ratio
  x.isFinite && (if x.isNegative then -(num : Int) else num) = n * den

end Binary64

end SolidityLint

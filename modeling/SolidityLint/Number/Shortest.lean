import SolidityLint.Number.Binary64

/-! The shortest decimal that reads back as a given double, and its text: the nearest of the shortest decimals, in
    positional notation for moderate sizes and with an exponent otherwise. -/

namespace SolidityLint.Binary64

/-- The power of ten of the leading digit of a ratio, which is not zero. -/
def leadingPower (num den : Nat) : Int :=
  if den ≤ num then ((Nat.toDigits 10 (num / den)).length : Int) - 1
  else
    let zeros := (Nat.toDigits 10 ((den + num - 1) / num - 1)).length
    (-zeros : Int)

/-- The ratio divided by a power of ten. -/
def overPower (num den : Nat) : Int → Nat × Nat
  | .ofNat p => (num, den * tenTo p)
  | .negSucc p => (num * tenTo (p + 1), den)

/-- The decimal with `count` digits that lies next to a finite number that is not zero and reads back as it, if
    there is one: its digits and its power of ten. Of two the nearer is taken, of two equally near the even. -/
def decimalOf? (x : Binary64) (count : Nat) : Option (Nat × Int) :=
  let (num, den) := x.ratio
  let power := leadingPower num den - (count - 1)
  let (n, d) := overPower num den power
  let readsBack (digits : Nat) : Bool := ofDecimal x.isNegative digits power = x
  let nearest := roundHalfEven n d
  let other := if nearest = n / d then nearest + 1 else nearest - 1
  if readsBack nearest then some (nearest, power)
  else if readsBack other then some (other, power)
  else none

/-- The digits and the power of ten of the shortest decimal that reads back as a finite number that is not zero;
    seventeen digits always do. -/
def shortest (x : Binary64) : Nat × Int :=
  ((List.range 17).findSome? fun i => x.decimalOf? (i + 1)).getD (0, 0)

/-- The digits without the zeros they end with. -/
def stripZeros (digits : List Char) : List Char :=
  (digits.reverse.dropWhile (· = '0')).reverse

/-- An exponent with its sign and at least two digits. -/
def exponentText (e : Int) : List Char :=
  let digits := Nat.toDigits 10 e.natAbs
  (if e < 0 then '-' else '+') :: (if digits.length < 2 then '0' :: digits else digits)

/-- The size `0.d₁d₂… * 10 ^ point` written out. Positional notation is used while the leading digit stands for
    10⁻⁴ to 10¹⁵, and then a fraction is always shown. -/
def decimalText (digits : List Char) (point : Int) : List Char :=
  if -4 < point ∧ point ≤ 16 then
    if point ≤ 0 then ['0', '.'] ++ List.replicate point.natAbs '0' ++ digits
    else
      let p := point.toNat
      if digits.length ≤ p then digits ++ List.replicate (p - digits.length) '0' ++ ['.', '0']
      else digits.take p ++ '.' :: digits.drop p
  else
    match digits with
    | [] => []
    | [d] => d :: 'e' :: exponentText (point - 1)
    | d :: rest => d :: '.' :: rest ++ 'e' :: exponentText (point - 1)

/-- The text of a number: `inf` and `nan` for what is no number, and the shortest decimal otherwise. -/
def text (x : Binary64) : List Char :=
  if x.isNaN then ['n', 'a', 'n']
  else
    let size : List Char :=
      if !x.isFinite then ['i', 'n', 'f']
      else if x.isZero then ['0', '.', '0']
      else
        let (digits, power) := x.shortest
        let written := Nat.toDigits 10 digits
        decimalText (stripZeros written) (written.length + power)
    if x.isNegative then '-' :: size else size

end SolidityLint.Binary64

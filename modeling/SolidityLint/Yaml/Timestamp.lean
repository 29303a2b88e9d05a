import SolidityLint.Value.Calendar
import SolidityLint.Yaml.Error

/-! Days and moments as documents spell them: year, month and day, then perhaps a time with a fraction of a second
    and an offset from universal time. -/

namespace SolidityLint.Yaml

/-- The time of a timestamp as it is spelled. The fraction is a run of digits; the offset is in minutes. -/
structure TimeParts where
  hour : Nat
  minute : Nat
  second : Nat
  fraction : List Char
  offset : Option Int

/-- A timestamp as it is spelled. -/
structure TimestampParts where
  year : Nat
  month : Nat
  day : Nat
  time : Option TimeParts

namespace Timestamp

/-- The value of digits. -/
def number (digits : List Char) : Nat :=
  digits.foldl (fun n c => n * 10 + (c.toNat - 48)) 0

/-- A number of at least `least` and at most `most` digits, and what follows it. -/
def digits? (least most : Nat) (cs : List Char) : Option (Nat × List Char) :=
  let run := (cs.take most).takeWhile Char.isDigit
  if run.length < least then none else some (number run, cs.drop run.length)

/-- What follows a character. -/
def after? (c : Char) : List Char → Option (List Char)
  | [] => none
  | d :: rest => if c = d then some rest else none

def isBlank (c : Char) : Bool :=
  c = ' ' || c = '\t'

/-- What follows the separator between day and time. -/
def afterSeparator? : List Char → Option (List Char)
  | [] => none
  | c :: rest =>
    if c = 'T' || c = 't' then some rest
    else if isBlank c then some (rest.dropWhile isBlank)
    else none

/-- An offset from universal time up to the end of the text; none if nothing is left. -/
def offset? (cs : List Char) : Option (Option Int) :=
  match cs.dropWhile isBlank with
  | [] => if cs.isEmpty then some none else none
  | ['Z'] => some (some 0)
  | sign :: rest =>
    if sign = '+' ∨ sign = '-' then do
      let (hours, rest) ← digits? 1 2 rest
      let minutes : Nat ← match rest with
        | [] => some 0
        | rest => do
          let (minutes, rest) ← digits? 2 2 (← after? ':' rest)
          guard rest.isEmpty
          some minutes
      let total : Int := hours * 60 + minutes
      return some (if sign = '-' then -total else total)
    else none

/-- The time behind the day. -/
def time? (cs : List Char) : Option TimeParts := do
  let rest ← afterSeparator? cs
  let (hour, rest) ← digits? 1 2 rest
  let (minute, rest) ← digits? 2 2 (← after? ':' rest)
  let (second, rest) ← digits? 2 2 (← after? ':' rest)
  let (fraction, rest) : List Char × List Char := match after? '.' rest with
    | some rest => rest.span Char.isDigit
    | none => ([], rest)
  let offset ← offset? rest
  return { hour, minute, second, fraction, offset }

/-- The timestamp that a whole text spells. -/
def parts? (cs : List Char) : Option TimestampParts := do
  let (year, rest) ← digits? 4 4 cs
  let (month, rest) ← digits? 1 2 (← after? '-' rest)
  let (day, rest) ← digits? 1 2 (← after? '-' rest)
  let time ← match rest with
    | [] => some none
    | rest => (time? rest).map some
  return { year, month, day, time }

/-- Whether a plain scalar is a timestamp: a day alone needs two digits for month and day. -/
def isPlain (cs : List Char) : Bool :=
  match parts? cs with
  | some parts => parts.time.isSome || cs.length = 10
  | none => false

/-- The day that a timestamp names. -/
def checkDay (parts : TimestampParts) : Except Error Day :=
  if parts.year = 0 then .error (.yearOutOfRange 0)
  else if parts.month = 0 ∨ 12 < parts.month then .error .monthOutOfRange
  else if parts.day = 0 ∨ Day.daysIn parts.year parts.month < parts.day then .error .dayOutOfRange
  else .ok ⟨parts.year, parts.month, parts.day⟩

/-- The first six digits of a fraction of a second, filled up with zeros. -/
def microseconds (fraction : List Char) : Nat :=
  let digits := fraction.take 6
  number digits * tenTo (6 - digits.length)

/-- The value of a timestamp. The offset is checked first, then the day, then the time. -/
def value (parts : TimestampParts) : Except Error Value :=
  match parts.time with
  | none => (checkDay parts).map .day
  | some time => do
    let offset := time.offset.getD 0
    if 1440 ≤ offset.natAbs then throw (.offsetOutOfRange offset)
    let day ← checkDay parts
    if 23 < time.hour then throw .hourOutOfRange
    if 59 < time.minute then throw .minuteOutOfRange
    if 59 < time.second then throw .secondOutOfRange
    return .moment { day, hour := time.hour, minute := time.minute, second := time.second,
                     microsecond := microseconds time.fraction, offset := time.offset }

end Timestamp

end SolidityLint.Yaml

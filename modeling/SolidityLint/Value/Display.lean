import SolidityLint.Json.Writer
import SolidityLint.Number.Shortest
import SolidityLint.Text.Quoted
import SolidityLint.Value.Basic

/-! How values are shown in messages. `display` shows a value the way it is written down, with quotes around text;
    `plain` shows text and times as they read, and is used for names and keys. -/

namespace SolidityLint.Value

open Text

/-- Parts separated by a comma and a blank. -/
def commaSeparated : List (List Char) → List Char
  | [] => []
  | [part] => part
  | part :: rest => part ++ ',' :: ' ' :: commaSeparated rest

def call (name : String) (arguments : List (List Char)) : List Char :=
  name.toList ++ '(' :: commaSeparated arguments ++ [')']

/-- A day, written as a call of its constructor. -/
def displayDay (d : Day) : List Char :=
  call "datetime.date" ([d.year, d.month, d.day].map (Nat.toDigits 10))

/-- An offset from universal time in minutes, written as a span of whole days and seconds. -/
def displaySpan (minutes : Int) : List Char :=
  let seconds := minutes * 60
  let days := seconds / 86400
  let rest := seconds % 86400
  call "datetime.timedelta" ((if days = 0 then [] else ["days=".toList ++ Json.intText days]) ++
    (if rest = 0 then [] else ["seconds=".toList ++ Json.intText rest]))

/-- A moment, written as a call of its constructor. Seconds and their fractions are left out when they are zero. -/
def displayMoment (t : Moment) : List Char :=
  let fraction : List Nat := if t.microsecond = 0 then [] else [t.microsecond]
  let seconds : List Nat := if t.second = 0 ∧ t.microsecond = 0 then [] else t.second :: fraction
  let numbers := [t.day.year, t.day.month, t.day.day, t.hour, t.minute] ++ seconds
  let zone : List (List Char) := match t.offset with
    | none => []
    | some 0 => ["tzinfo=datetime.timezone.utc".toList]
    | some offset => ["tzinfo=".toList ++ call "datetime.timezone" [displaySpan offset]]
  call "datetime.datetime" (numbers.map (Nat.toDigits 10) ++ zone)

mutual

/-- A value the way it is written down. -/
def display : Value → List Char
  | .null => "None".toList
  | .bool true => "True".toList
  | .bool false => "False".toList
  | .int n => Json.intText n
  | .float x _ => x.text
  | .str s => quoted s
  | .bytes content => quotedBytes content
  | .day d => displayDay d
  | .moment t => displayMoment t
  | .list items => '[' :: commaSeparated (displayItems items) ++ [']']
  | .mapping entries => '{' :: commaSeparated (displayEntries entries) ++ ['}']
  | .set [] => "set()".toList
  | .set (member :: members) => '{' :: commaSeparated (display member :: displayItems members) ++ ['}']
  | .pair key value => '(' :: display key ++ ',' :: ' ' :: display value ++ [')']
  | .pairAgain => "(...)".toList
  | .listAgain => "[...]".toList
  | .mappingAgain => "{...}".toList

/-- The items of a list, each the way it is written down. -/
def displayItems : List Value → List (List Char)
  | [] => []
  | item :: items => display item :: displayItems items

/-- The entries of a mapping, each the way it is written down. -/
def displayEntries : List (Value × Value) → List (List Char)
  | [] => []
  | entry :: entries => displayEntry entry :: displayEntries entries

/-- An entry of a mapping: key, colon and value. -/
def displayEntry : Value × Value → List Char
  | (key, value) => display key ++ ':' :: ' ' :: display value

end

/-- A value as it reads: text without quotes, days and moments in numbers, all else as it is written down. -/
def plain : Value → RawText
  | .str s => s
  | .day d => .ofChars d.text
  | .moment t => .ofChars t.text
  | value => .ofChars (display value)

/-! ### Numbers that are too long -/

mutual

/-- Whether a value can be shown: all numbers in it are short enough. -/
def isShowable : Value → Bool
  | .int n => n.natAbs < unshowableNumber
  | .list items => areShowable items
  | .mapping entries => areEntriesShowable entries
  | .set members => areShowable members
  | .pair key value => isShowable key && isShowable value
  | _ => true

/-- Whether all values of a list can be shown. -/
def areShowable : List Value → Bool
  | [] => true
  | item :: items => isShowable item && areShowable items

/-- Whether all entries of a mapping can be shown. -/
def areEntriesShowable : List (Value × Value) → Bool
  | [] => true
  | entry :: entries => isEntryShowable entry && areEntriesShowable entries

/-- Whether an entry of a mapping can be shown. -/
def isEntryShowable : Value × Value → Bool
  | (key, value) => isShowable key && isShowable value

end

end SolidityLint.Value

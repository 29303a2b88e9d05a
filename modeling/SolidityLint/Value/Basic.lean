import SolidityLint.Json.Basic
import SolidityLint.Value.Calendar

/-! Configuration values: what a YAML or a JSON document holds once it is read. A mapping keeps the order of its
    entries, and its keys are pairwise different as `sameKey` has it. -/

namespace SolidityLint

/-- A configuration value. -/
inductive Value where
  | null
  | bool (b : Bool)
  | int (n : Int)
  /-- A number with a fraction. What is no number is the same key only as itself, so its `origin` is kept. -/
  | float (x : Binary64) (origin : Nat)
  | str (s : RawText)
  | bytes (content : List UInt8)
  | day (d : Day)
  | moment (t : Moment)
  | list (items : List Value)
  | mapping (entries : List (Value × Value))
  | set (members : List Value)
  /-- An entry of an ordered mapping or of a list of pairs. -/
  | pair (key value : Value)
  /-- A pair that is part of itself, at the place where it comes again. -/
  | pairAgain
  /-- A list that is part of itself, at the place where it comes again. -/
  | listAgain
  /-- A mapping that is part of itself, at the place where it comes again. -/
  | mappingAgain
  deriving Inhabited

namespace Value

/-- The number that a value stands for as a key; truth values count as one and zero. -/
def keyNumber? : Value → Option Int
  | .bool b => some (if b then 1 else 0)
  | .int n => some n
  | _ => none

/-- Whether two values are the same key of a mapping. Numbers are compared by size whatever their kind; lists and
    mappings are no keys. -/
def sameKey (a b : Value) : Bool :=
  match a, b with
  | .null, .null => true
  | .str s, .str t => s = t
  | .bytes s, .bytes t => s = t
  | .day s, .day t => s = t
  | .moment s, .moment t => s.same t
  | .float x i, .float y j => if x.isNaN then y.isNaN && i = j else x = y || (x.isZero && y.isZero)
  | .float x _, b => match b.keyNumber? with
    | some n => x.equalsInt n
    | none => false
  | a, .float y _ => match a.keyNumber? with
    | some n => y.equalsInt n
    | none => false
  | a, b => match a.keyNumber?, b.keyNumber? with
    | some m, some n => m = n
    | _, _ => false

/-- Sets the value of a key: a key that is there keeps its place and its spelling, a new one goes to the end. -/
def insertEntry {α : Type} (entries : List (Value × α)) (key : Value) (value : α) : List (Value × α) :=
  if entries.any fun entry => entry.1.sameKey key then
    entries.map fun entry => if entry.1.sameKey key then (entry.1, value) else entry
  else entries ++ [(key, value)]

/-- The mapping that results from setting keys one after another. -/
def ofEntries (entries : List (Value × Value)) : Value :=
  .mapping (entries.foldl (fun done entry => insertEntry done entry.1 entry.2) [])

def entry? (name : RawText) (entries : List (Value × Value)) : Option Value :=
  (entries.find? fun entry => match entry.1 with
    | .str s => s = name
    | _ => false).map (·.2)

/-- Whether a value counts as absent where a default applies: null, false, zero and everything empty. -/
def isEmpty : Value → Bool
  | .null => true
  | .bool b => !b
  | .int n => n = 0
  | .float x _ => x.isZero
  | .str s => s.isEmpty
  | .bytes content => content.isEmpty
  | .list items => items.isEmpty
  | .mapping entries => entries.isEmpty
  | .set members => members.isEmpty
  | _ => false

mutual

def ofJson : Json → Value
  | .null => .null
  | .bool b => .bool b
  | .int n => .int n
  | .float x => .float x 0
  | .str s => .str s
  | .arr items => .list (ofJsonItems items)
  | .obj members => ofEntries (ofJsonMembers members)

def ofJsonItems : List Json → List Value
  | [] => []
  | item :: items => ofJson item :: ofJsonItems items

def ofJsonMembers : List (RawText × Json) → List (Value × Value)
  | [] => []
  | member :: members => ofJsonMember member :: ofJsonMembers members

def ofJsonMember : RawText × Json → Value × Value
  | (name, value) => (.str name, ofJson value)

end

end Value

end SolidityLint

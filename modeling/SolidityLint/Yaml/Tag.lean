import SolidityLint.Yaml.Timestamp

/-! Tags, which say what kind of value a node has. A plain scalar without a tag gets the tag of the kind that it is
    spelled like. -/

namespace SolidityLint.Yaml

/-- The kind of value that a node has. -/
inductive Tag where
  | null
  | bool
  | int
  | float
  | str
  | binary
  | timestamp
  | seq
  | map
  | set
  | omap
  | pairs
  | merge
  | value
  | unknown
  deriving DecidableEq

namespace Tag

/-- The names of tags behind the expansion that they have in common. -/
def names : List (String × Tag) :=
  [("null", .null), ("bool", .bool), ("int", .int), ("float", .float), ("str", .str), ("binary", .binary),
    ("timestamp", .timestamp), ("seq", .seq), ("map", .map), ("set", .set), ("omap", .omap), ("pairs", .pairs),
    ("merge", .merge), ("value", .value)]

/-- The expansion that the standard tags have in common. -/
def standard : List Char :=
  "tag:yaml.org,2002:".toList

/-- The tag that a full name stands for. -/
def ofName (name : List Char) : Tag :=
  if standard.isPrefixOf name then
    ((names.find? (·.1 = String.ofList (name.drop standard.length))).map (·.2)).getD .unknown
  else .unknown

/-- Whether values of the kind hold other values. -/
def isCollection : Tag → Bool
  | .seq | .map | .set | .omap | .pairs => true
  | _ => false

/-- Whether there are values of the kind. -/
def hasValues : Tag → Bool
  | .merge | .value | .unknown => false
  | _ => true

/-! ### Plain scalars -/

def isTruthWord (cs : List Char) : Bool :=
  ["yes", "Yes", "YES", "no", "No", "NO", "true", "True", "TRUE", "false", "False", "FALSE", "on", "On", "ON", "off",
    "Off", "OFF"].contains (String.ofList cs)

def isNullWord (cs : List Char) : Bool :=
  ["", "~", "null", "Null", "NULL"].contains (String.ofList cs)

/-- The text without a sign in front. -/
def dropSign : List Char → List Char
  | '-' :: rest => rest
  | '+' :: rest => rest
  | cs => cs

/-- Whether a text is a run of characters of one kind that is not empty. -/
def isRun (p : Char → Bool) (cs : List Char) : Bool :=
  !cs.isEmpty && cs.all p

def isDigitOrMark (c : Char) : Bool :=
  c.isDigit || c = '_'

/-- Whether a text is made of one or more groups of one or two digits below sixty, each behind a colon. -/
def isSexagesimal : List Char → Bool
  | [':', a] => a.isDigit
  | [':', a, b] => '0' ≤ a && a ≤ '5' && b.isDigit
  | ':' :: a :: ':' :: rest => a.isDigit && isSexagesimal (':' :: rest)
  | ':' :: a :: b :: ':' :: rest => '0' ≤ a && a ≤ '5' && b.isDigit && isSexagesimal (':' :: rest)
  | _ => false

/-- Whether a text is spelled like a whole number. -/
def isInt (cs : List Char) : Bool :=
  match dropSign cs with
  | ['0'] => true
  | '0' :: 'b' :: rest => isRun (fun c => c = '0' || c = '1' || c = '_') rest
  | '0' :: 'x' :: rest => isRun (fun c => (Text.hexDigit? c).isSome || c = '_') rest
  | '0' :: rest => isRun (fun c => ('0' ≤ c && c ≤ '7') || c = '_') rest
  | c :: rest =>
    '1' ≤ c && c ≤ '9' &&
      (let tail := rest.dropWhile isDigitOrMark
       tail.isEmpty || isSexagesimal tail)
  | [] => false

/-- Whether a text is an exponent with a sign, or empty. -/
def isExponent : List Char → Bool
  | [] => true
  | e :: sign :: digits => (e = 'e' || e = 'E') && (sign = '-' || sign = '+') && isRun Char.isDigit digits
  | _ => false

/-- Whether a text is spelled like a number with a fraction. -/
def isFloat (cs : List Char) : Bool :=
  let unsigned := dropSign cs
  [".inf", ".Inf", ".INF"].contains (String.ofList unsigned) ||
  [".nan", ".NaN", ".NAN"].contains (String.ofList cs) ||
  (match cs with
    | '.' :: d :: rest => d.isDigit && isExponent (rest.dropWhile isDigitOrMark)
    | _ => false) ||
  (match unsigned with
    | d :: rest =>
      d.isDigit &&
        (let tail := rest.dropWhile isDigitOrMark
         match tail with
          | '.' :: fraction => isExponent (fraction.dropWhile isDigitOrMark)
          | ':' :: _ =>
            let groups := tail.takeWhile (· ≠ '.')
            match tail.drop groups.length with
            | '.' :: fraction => isSexagesimal groups && fraction.all isDigitOrMark
            | _ => false
          | _ => false)
    | [] => false)

/-- The text without a newline at its end. -/
def dropNewline (cs : List Char) : List Char :=
  if cs.getLast? = some '\n' && 1 < cs.length then cs.dropLast else cs

/-- The tag of a plain scalar. A newline at its end is passed over. A mark that starts a property or an alias has a
    tag of its own when it is all of the text, and no value has that tag. -/
def ofPlain (text : List Char) : Tag :=
  let cs := dropNewline text
  if isTruthWord cs then .bool
  else if isFloat cs then .float
  else if isInt cs then .int
  else if cs = ['<', '<'] then .merge
  else if isNullWord cs then .null
  else if Timestamp.isPlain cs then .timestamp
  else if cs = ['='] then .value
  else if [['!'], ['&'], ['*']].contains cs then .unknown
  else .str

end Tag

end SolidityLint.Yaml

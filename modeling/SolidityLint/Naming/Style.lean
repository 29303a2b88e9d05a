/-! Casing styles for names. Letters and digits are those of ASCII, and one newline at the end of a name is
    passed over. -/

namespace SolidityLint

/-- A casing style for names. -/
inductive NameStyle where
  | capWords
  | mixedCase
  | underscoreMixedCase
  | upperCase
  deriving DecidableEq

namespace NameStyle

/-- The name of a style in configurations and messages. -/
def name : NameStyle → String
  | .capWords => "CapWords"
  | .mixedCase => "mixedCase"
  | .underscoreMixedCase => "_underscoreMixedCase"
  | .upperCase => "UPPER_CASE"

/-- The text without the newline at its end, if it ends with one. -/
def dropFinalNewline (cs : List Char) : List Char :=
  if cs.getLast? = some '\n' then cs.dropLast else cs

/-- A capital followed by letters and digits. -/
def isCapWords : List Char → Bool
  | [] => false
  | c :: rest => c.isUpper && rest.all Char.isAlphanum

/-- A small letter followed by letters and digits. -/
def isMixedCase : List Char → Bool
  | [] => false
  | c :: rest => c.isLower && rest.all Char.isAlphanum

/-- An underscore in front of a name in mixed case. -/
def isUnderscoreMixedCase : List Char → Bool
  | [] => false
  | c :: rest => c = '_' && isMixedCase rest

/-- A capital followed by capitals, digits and underscores. -/
def isUpperCase : List Char → Bool
  | [] => false
  | c :: rest => c.isUpper && rest.all fun d => d.isUpper || d.isDigit || d = '_'

def admits (style : NameStyle) (name : List Char) : Bool :=
  let body := dropFinalNewline name
  match style with
  | .capWords => isCapWords body
  | .mixedCase => isMixedCase body
  | .underscoreMixedCase => isUnderscoreMixedCase body
  | .upperCase => isUpperCase body

end NameStyle

/-- The endings by which a name counts as past tense. -/
def pastTenseEndings : List String :=
  ["ed", "Updated", "Created", "Deleted", "Added", "Removed", "Set", "Changed"]

/-- Whether a name counts as past tense. -/
def isPastTense (name : List Char) : Bool :=
  pastTenseEndings.any fun ending => ending.toList.isSuffixOf name

end SolidityLint

import SolidityLint.Number.Binary64
import SolidityLint.Text.Raw

/-! JSON documents. Members keep their order, and whole numbers are told apart from numbers with a fraction or an
    exponent. -/

namespace SolidityLint

/-- A JSON document. -/
inductive Json where
  | null
  | bool (b : Bool)
  | int (n : Int)
  | float (x : Binary64)
  | str (s : RawText)
  | arr (items : List Json)
  | obj (members : List (RawText × Json))
  deriving Inhabited

namespace Json

/-- The value of the last member with a name. -/
def member? (name : RawText) : Json → Option Json
  | .obj members => (members.reverse.find? (·.1 = name)).map (·.2)
  | _ => none

end Json

end SolidityLint

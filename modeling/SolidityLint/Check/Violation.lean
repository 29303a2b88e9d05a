import SolidityLint.Rule

/-! A violation of a rule in a text, before its severity is known. -/

namespace SolidityLint

/-- A violation: the line it stands on, the rule, and what is said about it. -/
structure Violation where
  line : Nat
  rule : Rule
  message : String
  deriving DecidableEq

end SolidityLint

import SolidityLint.Yaml.Graph.Document
import SolidityLint.Yaml.Unfolding

/-! The value of a document: its tokens are put together to a graph of nodes, the nodes are read as objects, and the
    objects are unfolded to a value. -/

namespace SolidityLint.Yaml

/-- The value of the only document in bytes for a purpose; an empty stream has the value null. -/
def load (purpose : Purpose) (bytes : List UInt8) : Except Error Value := do
  match ← Graph.ofTokens (Token.ofInput (.ofBytes bytes)) with
  | none => return .null
  | some g => return (← Objects.ofGraph g).rootValue g.complete purpose

end SolidityLint.Yaml

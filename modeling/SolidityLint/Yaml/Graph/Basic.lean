import SolidityLint.Yaml.Tag

/-! The nodes of a document. An alias stands for the node that has the anchor, so nodes form a graph, and a node can
    be part of itself; nodes are known by their numbers. -/

namespace SolidityLint.Yaml

/-- What a node holds; other nodes are given by their numbers. -/
inductive Content where
  | scalar (text : RawText)
  | sequence (items : List Nat)
  | mapping (entries : List (Nat × Nat))
  deriving Inhabited

/-- A node: its tag and what it holds. -/
structure Node where
  tag : Tag
  content : Content

instance : Inhabited Node := ⟨⟨.unknown, .scalar ""⟩⟩

/-- The nodes of a document, the number of its root, and the numbers of all nodes in the order in which they were
    complete: a node comes behind all its parts that it is not itself a part of. -/
structure Graph where
  nodes : Array Node
  root : Nat
  complete : List Nat

namespace Graph

def node (g : Graph) (id : Nat) : Node :=
  g.nodes.getD id default

/-- The tag of a node. -/
def tag (g : Graph) (id : Nat) : Tag :=
  (g.node id).tag

/-- The entries of a mapping; other nodes have none. -/
def entries (g : Graph) (id : Nat) : List (Nat × Nat) :=
  match (g.node id).content with
  | .mapping entries => entries
  | _ => []

/-- Gives a node another tag. -/
def setTag (g : Graph) (id : Nat) (tag : Tag) : Graph :=
  { g with nodes := g.nodes.modify id fun node => { node with tag } }

/-- Gives a mapping other entries. -/
def setEntries (g : Graph) (id : Nat) (entries : List (Nat × Nat)) : Graph :=
  { g with nodes := g.nodes.modify id fun node => { node with content := .mapping entries } }

/-- The text that a node stands for. A mapping stands for the text of its key `=`, if it has one. -/
def scalarText (g : Graph) : (fuel : Nat) → (id : Nat) → Except Error RawText
  | 0, _ => .error .endless
  | fuel + 1, id =>
    match (g.node id).content with
    | .scalar text => .ok text
    | .sequence _ => .error .malformed
    | .mapping entries =>
      match entries.find? fun entry => g.tag entry.1 = .value with
      | some entry => g.scalarText fuel entry.2
      | none => .error .malformed

/-- The text that a node stands for; no chain of different nodes is longer than their number. -/
def text (g : Graph) (id : Nat) : Except Error RawText :=
  g.scalarText (g.nodes.size + 1) id

end Graph

end SolidityLint.Yaml

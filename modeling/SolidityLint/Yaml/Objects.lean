import SolidityLint.Value.SetOrder
import SolidityLint.Yaml.Graph.Merging
import SolidityLint.Yaml.Scalars

/-! What the nodes of a document are: values and collections of other nodes. Nodes are looked at level by level from
    the root, each once, so the first fault in that order is the one that is reported. -/

namespace SolidityLint.Yaml

/-- What a node is: a value, or a collection of nodes given by their numbers. Keys and members are no collections, so
    they stand there as values. -/
inductive Object where
  | value (value : Value)
  | list (items : List Nat)
  | pairs (entries : List (Nat × Nat))
  | mapping (entries : List (Value × Nat))
  | set (members : List Value)

/-- What the nodes are that can be reached from the root. -/
structure Objects where
  table : Array (Option Object)
  root : Nat

namespace Objects

/-- What a node is. -/
def get? (objects : Objects) (id : Nat) : Option Object :=
  objects.table.getD id none

end Objects

/-- The state of the construction of objects: the nodes, a bound for the steps of merging, what the nodes are so far,
    and the collections among them whose parts are still to be looked at, the last first. -/
structure Construction where
  graph : Graph
  mergeLimit : Nat
  table : Array (Option Object)
  waiting : List Nat := []

namespace Construction

/-- Says what a node is. -/
def make (c : Construction) (id : Nat) (object : Object) : Construction :=
  { c with table := c.table.setIfInBounds id (some object) }

/-- The value of a scalar node. What stands for a text does not do for a timestamp. -/
def scalar (c : Construction) (id : Nat) : Except Error Value := do
  let node := c.graph.node id
  if !node.tag.hasValues then throw .malformed
  let text ← c.graph.text id
  match node.tag, node.content with
  | .timestamp, .mapping _ => throw .timestampNotText
  | tag, _ => scalarValue (id + 1) tag text

/-- Looks at a node: a collection waits until its parts are looked at, a scalar gets its value at once. -/
def meet (c : Construction) (id : Nat) : Except Error Construction :=
  if (c.table.getD id none).isSome then .ok c
  else if (c.graph.tag id).isCollection then .ok { c.make id (.list []) with waiting := id :: c.waiting }
  else (c.scalar id).map fun value => c.make id (.value value)

/-- Looks at a node that is a key and gives its value. A collection is no key. -/
def meetKey (c : Construction) (id : Nat) : Except Error (Construction × Value) := do
  if (c.graph.tag id).isCollection then throw .malformed
  let c ← c.meet id
  match c.table.getD id none with
  | some (.value value) => return (c, value)
  | _ => throw .malformed

/-- Looks at the keys and values of entries and gives the entries of the mapping that they make. -/
def meetEntries (c : Construction) (entries : List (Nat × Nat)) :
    Except Error (Construction × List (Value × Nat)) :=
  entries.foldlM (fun (c, done) entry => do
    let (c, key) ← c.meetKey entry.1
    return (← c.meet entry.2, Value.insertEntry done key entry.2)) (c, [])

/-- Looks at the key and the value of the only entry that a mapping has at this time, and gives them. -/
def meetPair (c : Construction) (id : Nat) : Except Error (Construction × Nat × Nat) := do
  match (c.graph.node id).content with
  | .mapping [(key, value)] => return (← (← c.meet key).meet value, key, value)
  | _ => throw .malformed

/-- Looks at mappings with a single entry and gives their entries. -/
def meetPairs (c : Construction) (items : List Nat) : Except Error (Construction × List (Nat × Nat)) := do
  let (c, entries) ← items.foldlM (fun (c, done) item => do
    let (c, entry) ← c.meetPair item
    return (c, entry :: done)) (c, ([] : List (Nat × Nat)))
  return (c, entries.reverse)

/-- Merges into a mapping all that it names, and looks at its entries. -/
def meetMapping (c : Construction) (id : Nat) : Except Error (Construction × List (Value × Nat)) := do
  let graph ← c.graph.flatten id c.mergeLimit
  meetEntries { c with graph } (graph.entries id)

/-- Looks at the parts of a collection. -/
def complete (c : Construction) (id : Nat) : Except Error Construction := do
  let node := c.graph.node id
  match node.tag, node.content with
  | .seq, .sequence items => return (← items.foldlM meet c).make id (.list items)
  | .omap, .sequence items | .pairs, .sequence items =>
    let (c, entries) ← c.meetPairs items
    return c.make id (.pairs entries)
  | .map, .mapping _ =>
    let (c, entries) ← c.meetMapping id
    return c.make id (.mapping entries)
  | .set, .mapping _ =>
    let (c, entries) ← c.meetMapping id
    return c.make id (.set (Value.inSetOrder (entries.map (·.1))))
  | _, _ => throw .malformed

/-- Looks at the parts of collections in their order, and then at those of the collections met meanwhile. -/
def completeLevels (c : Construction) (level : List Nat) : (fuel : Nat) → Except Error Construction
  | 0 => .ok c
  | fuel + 1 =>
    if level.isEmpty then .ok c
    else do
      let c ← level.foldlM complete { c with waiting := [] }
      c.completeLevels c.waiting.reverse fuel

end Construction

/-- What the nodes of a graph are. -/
def Objects.ofGraph (g : Graph) : Except Error Objects := do
  let start : Construction :=
    { graph := g, mergeLimit := 2 * g.mergeCount + 2, table := Array.replicate g.nodes.size none }
  let c ← start.meet g.root
  let c ← c.completeLevels c.waiting.reverse (g.nodes.size + 1)
  return ⟨c.table, g.root⟩

end SolidityLint.Yaml

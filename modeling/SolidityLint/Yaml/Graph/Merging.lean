import SolidityLint.Yaml.Graph.Basic

/-! Merging of mappings. A merge entry of a mapping names other mappings, and their entries take its place, in front
    of the entries that the mapping has itself. A mapping is changed for good, wherever it stands; entries that come
    twice are told apart by the order in which they are read. -/

namespace SolidityLint.Yaml.Graph

/-- Whether an entry asks for the entries of other mappings. -/
def isMerge (g : Graph) (entry : Nat × Nat) : Bool :=
  g.tag entry.1 = .merge

/-- The number of merge entries in all mappings. It bounds the steps of merging, each of which removes one. -/
def mergeCount (g : Graph) : Nat :=
  (List.range g.nodes.size).foldl (fun count id => count + (g.entries id).countP g.isMerge) 0

/-- What the first merge entry names, and the other entries. -/
def firstMerge? (g : Graph) : List (Nat × Nat) → Option (Nat × List (Nat × Nat))
  | [] => none
  | entry :: rest =>
    if g.isMerge entry then some (entry.2, rest)
    else (g.firstMerge? rest).map fun (source, others) => (source, entry :: others)

/-- Makes the keys `=` of a mapping plain texts. -/
def settleKeys (g : Graph) (id : Nat) : Graph :=
  (g.entries id).foldl (fun g entry => if g.tag entry.1 = .value then g.setTag entry.1 .str else g) g

mutual

/-- Merges into a mapping all that it names. -/
def flatten (g : Graph) (id : Nat) : (fuel : Nat) → Except Error Graph
  | 0 => .error .malformed
  | fuel + 1 => (g.settleKeys id).takeOver id [] fuel

/-- Takes over entries for the merge entries that a mapping still has; `merged` are those taken over before. From a
    list of mappings the entries of the last come first. -/
def takeOver (g : Graph) (id : Nat) (merged : List (Nat × Nat)) : (fuel : Nat) → Except Error Graph
  | 0 => .error .malformed
  | fuel + 1 =>
    match g.firstMerge? (g.entries id) with
    | none => .ok (if merged.isEmpty then g else g.setEntries id (merged ++ g.entries id))
    | some (source, others) => do
      let g := g.setEntries id others
      match (g.node source).content with
      | .mapping _ =>
        let g ← g.flatten source fuel
        g.takeOver id (merged ++ g.entries source) fuel
      | .sequence sources =>
        let (g, taken) ← sources.foldlM (fun (g, taken) source => match (g.node source).content with
          | .mapping _ => do
            let g ← g.flatten source fuel
            return (g, g.entries source ++ taken)
          | _ => throw .malformed) (g, ([] : List (Nat × Nat)))
        g.takeOver id (merged ++ taken) fuel
      | .scalar _ => throw .malformed

end

end SolidityLint.Yaml.Graph

import SolidityLint.Yaml.Graph.Basic
import SolidityLint.Yaml.Token.Stream

/-! The graph of the one document that a stream of tokens holds. -/

namespace SolidityLint.Yaml

/-- The state of the building of a graph: the tokens that follow, the nodes so far, the numbers of complete nodes
    (the last first), the nodes that have anchors, and the expansions of tag handles. -/
structure GraphBuilding where
  tokens : List Token
  nodes : Array Node := #[]
  complete : List Nat := []
  anchors : List (List Char × Nat) := []
  handles : List (List Char × List Char) := []

/-- Building of a graph, which a fault ends. -/
abbrev Building := StateT GraphBuilding (Except Error)

namespace Building

/-- The next token. -/
def peek : Building Token := do
  match (← get).tokens with
  | .fault e :: _ => throw e
  | token :: _ => return token
  | [] => return .streamEnd

/-- Passes over the next token. -/
def skip : Building Unit :=
  modify fun b => { b with tokens := b.tokens.tail }

/-- Passes over the next token if it is the given one, and says whether it is. -/
def skipIf (token : Token) : Building Bool := do
  if (← peek) = token then
    skip
    return true
  else return false

/-- Passes over the next token, which has to be the given one. -/
def expect (token : Token) : Building Unit := do
  if !(← skipIf token) then throw .malformed

/-! ### Nodes -/

/-- Makes room for a node and gives its number; the anchor stands for it from now on. -/
def reserve (anchor : Option (List Char)) : Building Nat := do
  let b ← get
  let id := b.nodes.size
  let anchors := match anchor with
    | some name => (name, id) :: b.anchors
    | none => b.anchors
  set { b with nodes := b.nodes.push default, anchors }
  return id

/-- Fills in a node. -/
def fill (id : Nat) (tag : Tag) (content : Content) : Building Nat := do
  modify fun b => { b with nodes := b.nodes.setIfInBounds id ⟨tag, content⟩, complete := id :: b.complete }
  return id

/-- A scalar node. -/
def scalar (anchor : Option (List Char)) (tag : Tag) (text : RawText) : Building Nat := do
  fill (← reserve anchor) tag (.scalar text)

/-- The node for a place where nothing is written. -/
def emptyNode : Building Nat :=
  scalar none .null ""

/-- The node that an alias stands for. -/
def aliased (name : List Char) : Building Nat := do
  match (← get).anchors.find? (·.1 = name) with
  | some entry => return entry.2
  | none => throw .malformed

/-! ### Properties -/

/-- The anchor in front of a node, if there is one. -/
def anchor? : Building (Option (List Char)) := do
  match ← peek with
  | .anchor name => skip; return some name
  | _ => return none

/-- The full name of the tag in front of a node, if there is one. -/
def tag? : Building (Option (Option (List Char) × List Char)) := do
  match ← peek with
  | .tag handle suffix => skip; return some (handle, suffix)
  | _ => return none

def tagName (handle : Option (List Char)) (suffix : List Char) : Building (List Char) := do
  match handle with
  | none => return suffix
  | some handle => match (← get).handles.find? (·.1 = handle) with
    | some entry => return entry.2 ++ suffix
    | none => throw .malformed

/-- The anchor and the full name of the tag in front of a node, in either order. -/
def properties : Building (Option (List Char) × Option (List Char)) := do
  let first ← anchor?
  let tag ← tag?
  let anchor ← match first with
    | some name => pure (some name)
    | none => if tag.isSome then anchor? else pure none
  match tag with
  | some (handle, suffix) => return (anchor, some (← tagName handle suffix))
  | none => return (anchor, none)

/-- The tag of a scalar by its properties and by the way it is written. -/
def scalarTag (name : Option (List Char)) (isPlain : Bool) (text : RawText) : Tag :=
  match name with
  | none => if isPlain then .ofPlain text.chars else .str
  | some name => if name = ['!'] then .ofPlain text.chars else .ofName name

/-- The tag of a collection by its properties. -/
def collectionTag (name : Option (List Char)) (default : Tag) : Tag :=
  match name with
  | none => default
  | some name => if name = ['!'] then default else .ofName name

/-! ### Collections -/

/-- The kinds of collections by how their parts are written. -/
inductive Shape where
  | blockSequence
  | indentlessSequence
  | blockMapping
  | flowSequence
  | flowMapping
  deriving DecidableEq

namespace Shape

/-- Whether a collection is a mapping. -/
def isMapping : Shape → Bool
  | .blockMapping | .flowMapping => true
  | _ => false

/-- The token that ends a collection, if there is one. -/
def endToken? : Shape → Option Token
  | .blockSequence | .blockMapping => some .blockEnd
  | .flowSequence => some .flowSequenceEnd
  | .flowMapping => some .flowMappingEnd
  | .indentlessSequence => none

end Shape

/-- The shape of the collection that a token starts; a dash starts one only where a sequence need not be
    indented. -/
def shape? (inBlock indentless : Bool) : Token → Option Shape
  | .blockEntry => if indentless then some .indentlessSequence else none
  | .blockSequenceStart => if inBlock then some .blockSequence else none
  | .blockMappingStart => if inBlock then some .blockMapping else none
  | .flowSequenceStart => some .flowSequence
  | .flowMappingStart => some .flowMapping
  | _ => none

mutual

/-- A node. -/
def node (inBlock indentless : Bool) : (fuel : Nat) → Building Nat
  | 0 => throw .malformed
  | fuel + 1 => do
    if let .alias name ← peek then
      skip
      return ← aliased name
    let (anchor, name) ← properties
    let token ← peek
    if let some anchor := anchor then
      if (← get).anchors.any (·.1 = anchor) then throw .malformed
    match token, shape? inBlock indentless token with
    | .scalar text isPlain, _ =>
      skip
      scalar anchor (scalarTag name isPlain text) text
    | _, some shape => collection anchor name shape fuel
    | _, none =>
      if anchor.isSome || name.isSome then scalar anchor (scalarTag name true "") ""
      else throw .malformed

/-- A collection, at the token that starts it. -/
def collection (anchor name : Option (List Char)) (shape : Shape) : (fuel : Nat) → Building Nat
  | 0 => throw .malformed
  | fuel + 1 => do
    let id ← reserve anchor
    if shape ≠ .indentlessSequence then skip
    if shape.isMapping then
      let entries ← mappingEntries shape true fuel
      fill id (collectionTag name .map) (.mapping entries)
    else
      let items ← sequenceItems shape true fuel
      fill id (collectionTag name .seq) (.sequence items)

/-- A node, or the node for nothing if one of the given tokens follows. -/
def nodeUnless (stops : List Token) (inBlock indentless : Bool) : (fuel : Nat) → Building Nat
  | 0 => throw .malformed
  | fuel + 1 => do
    if stops.contains (← peek) then emptyNode else node inBlock indentless fuel

/-- The items of a sequence up to its end. -/
def sequenceItems (shape : Shape) (isFirst : Bool) : (fuel : Nat) → Building (List Nat)
  | 0 => throw .malformed
  | fuel + 1 => do
    match shape with
    | .flowSequence =>
      if ← skipIf .flowSequenceEnd then return []
      if !isFirst then
        expect .flowEntry
        if ← skipIf .flowSequenceEnd then return []
      let item ← if ← skipIf .key then flowPair fuel else node false false fuel
      return item :: (← sequenceItems shape false fuel)
    | shape =>
      if ← skipIf .blockEntry then
        let stops : List Token := if shape = .blockSequence then [.blockEntry, .blockEnd]
          else [.blockEntry, .key, .value, .blockEnd]
        let item ← nodeUnless stops true false fuel
        return item :: (← sequenceItems shape false fuel)
      else
        if let some token := shape.endToken? then expect token
        return []

/-- A mapping with a single entry inside a flow sequence, behind the mark of its key. -/
def flowPair : (fuel : Nat) → Building Nat
  | 0 => throw .malformed
  | fuel + 1 => do
    let id ← reserve none
    let key ← nodeUnless [.value, .flowEntry, .flowSequenceEnd] false false fuel
    let value ← if ← skipIf .value then nodeUnless [.flowEntry, .flowSequenceEnd] false false fuel else emptyNode
    fill id .map (.mapping [(key, value)])

/-- The entries of a mapping up to its end. -/
def mappingEntries (shape : Shape) (isFirst : Bool) : (fuel : Nat) → Building (List (Nat × Nat))
  | 0 => throw .malformed
  | fuel + 1 => do
    match shape with
    | .flowMapping =>
      if ← skipIf .flowMappingEnd then return []
      if !isFirst then
        expect .flowEntry
        if ← skipIf .flowMappingEnd then return []
      if ← skipIf .key then
        let key ← nodeUnless [.value, .flowEntry, .flowMappingEnd] false false fuel
        let value ← if ← skipIf .value then nodeUnless [.flowEntry, .flowMappingEnd] false false fuel else emptyNode
        return (key, value) :: (← mappingEntries shape false fuel)
      else
        let key ← node false false fuel
        let value ← emptyNode
        return (key, value) :: (← mappingEntries shape false fuel)
    | shape =>
      if ← skipIf .key then
        let stops : List Token := [.key, .value, .blockEnd]
        let key ← nodeUnless stops true true fuel
        let value ← if ← skipIf .value then nodeUnless stops true true fuel else emptyNode
        return (key, value) :: (← mappingEntries shape false fuel)
      else
        expect .blockEnd
        return []

end

/-! ### Documents -/

/-- The expansions that tag handles have without directives. -/
def standardHandles : List (List Char × List Char) :=
  [(['!'], ['!']), (['!', '!'], Tag.standard)]

/-- Reads the directives in front of a document. A second version and a second expansion of a handle are faults. -/
def directives (hasVersion : Bool) (handles : List (List Char × List Char)) : (fuel : Nat) → Building Unit
  | 0 => throw .malformed
  | fuel + 1 => do
    match ← peek with
    | .directive content =>
      skip
      match content with
      | .version major _ =>
        if hasVersion || major ≠ 1 then throw .malformed
        directives true handles fuel
      | .tagHandle handle expansion =>
        if handles.any (·.1 = handle) then throw .malformed
        directives hasVersion ((handle, expansion) :: handles) fuel
      | .other => directives hasVersion handles fuel
    | _ => modify fun b => { b with handles := handles ++ standardHandles }

/-- Passes over the marks that end documents. -/
def skipDocumentEnds : (fuel : Nat) → Building Unit
  | 0 => throw .malformed
  | fuel + 1 => do
    if ← skipIf .documentEnd then skipDocumentEnds fuel

/-- Whether a token cannot be part of the content of a document. -/
def endsDocument : Token → Bool
  | .directive _ | .documentStart | .documentEnd | .streamEnd => true
  | _ => false

/-- The root of the first document; none if the stream is empty. -/
def firstDocument (fuel : Nat) : Building (Option Nat) := do
  match ← peek with
  | .streamEnd => return none
  | .directive _ | .documentStart =>
    directives false [] fuel
    expect .documentStart
    if endsDocument (← peek) then return some (← emptyNode) else return some (← node true false fuel)
  | _ =>
    modify fun b => { b with handles := standardHandles }
    return some (← node true false fuel)

/-- The root of the only document; none if the stream is empty. A second document is looked at up to its start. -/
def onlyDocument (fuel : Nat) : Building (Option Nat) := do
  let root ← firstDocument fuel
  skipDocumentEnds fuel
  if (← peek) = .streamEnd then return root
  directives false [] fuel
  let _ ← peek
  throw .malformed

end Building

/-- The graph of the only document of a stream of tokens; none if the stream is empty. Every fourth step takes a
    token at least, so the number of tokens bounds the steps. -/
def Graph.ofTokens (tokens : List Token) : Except Error (Option Graph) := do
  let (root, b) ← (Building.onlyDocument (4 * tokens.length + 8)).run { tokens }
  return root.map fun root => { nodes := b.nodes, root, complete := b.complete.reverse }

end SolidityLint.Yaml

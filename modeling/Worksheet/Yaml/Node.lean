import Worksheet.Yaml.Tag
import Worksheet.Yaml.Token.Lexer

/-!
# Nodes of YAML

The nodes of a document have numbers, by which they refer to their parts. An alias
stands for the node that has been given its name, so that a node can be a part of
several others, and even of itself.

* `Graph.ofTokens?` reads the only document of a text; a text may also hold no
  document at all. Tokens are looked at one by one, so that a failure behind them
  only counts if they are in order.
-/

namespace Worksheet.Yaml

/-- The number of a node. -/
abbrev NodeId := Nat

/-- A node of a document. -/
inductive Node where
  | scalar (tag : Tag) (content : Content)
  | sequence (tag : Tag) (items : List NodeId)
  | mapping (tag : Tag) (entries : List (NodeId × NodeId))

namespace Node

/-- The tag of a node. -/
def tag : Node → Tag
  | scalar t _ => t
  | sequence t _ => t
  | mapping t _ => t

/-- The node with another tag. -/
def retag (t : Tag) : Node → Node
  | scalar _ c => scalar t c
  | sequence _ items => sequence t items
  | mapping _ es => mapping t es

/-- The entries of a mapping. -/
def entries : Node → List (NodeId × NodeId)
  | mapping _ es => es
  | _ => []

/-- A node that is left out. -/
def empty : Node := scalar .null (.text [])

/-- The tag of a collection, which has a usual one. -/
def collectionTag (usual : Tag) (name : Option Text) : Tag :=
  match name with
  | none => usual
  | some t => if t = ['!'] then usual else Tag.ofName t

/-- The tag of a scalar. A plain one, and one with the tag `!`, is of the kind that
it looks like. -/
def scalarTag (name : Option Text) (content : Content) (plain : Bool) : Tag :=
  let implied := match content with
    | .text t => Tag.implied t
    | .codes _ => .text
  match name with
  | none => if plain then implied else .text
  | some t => if t = ['!'] then implied else Tag.ofName t

end Node

/-- The nodes of a document by their numbers, and the number of the outermost
one. -/
structure Graph where
  nodes : Array Node
  root : NodeId

namespace Graph

/-! ## Reading nodes -/

/-- What is known while nodes are read: the tokens that follow and the failure
behind them, the nodes that have been read, those with a name, and the
abbreviations for tags. -/
structure State where
  tokens : List Token
  failure : Failure
  nodes : Array Node := #[]
  names : List (Text × NodeId) := []
  handles : List (Text × Text) := []

/-- Something that is read from tokens. -/
abbrev Read := StateT State (Except Failure)

/-- The next token. -/
def peek : Read Token := do
  match (← get).tokens with
  | t :: _ => return t
  | [] => throw (← get).failure

/-- Goes on to the token after the next one. -/
def skip : Read Unit := modify fun s => { s with tokens := s.tokens.tail }

/-- Whether the next token is one of several. -/
def before (ts : List Token) : Read Bool := return ts.contains (← peek)

/-- The next token has to be a given one. -/
def expect (t : Token) : Read Unit := do
  if (← peek) = t then skip else throw .broken

/-- A tag with its abbreviation written out. -/
def expand (handle : Option Text) (suffix : Text) : Read Text := do
  match handle with
  | none => return suffix
  | some h =>
    match (← get).handles.find? (·.1 = h) with
    | some e => return e.2 ++ suffix
    | none => throw .broken

/-- The tag of a node as it is written, if it has one. -/
def readTag : Read (Option (Option Text × Text)) := do
  match ← peek with
  | .tag handle suffix => skip; return some (handle, suffix)
  | _ => return none

/-- The name of a node, if it has one. -/
def readAnchor : Read (Option Text) := do
  match ← peek with
  | .anchor name => skip; return some name
  | _ => return none

/-- The name and the tag of a node, in either order. -/
def properties : Read (Option Text × Option Text) := do
  let first ← readAnchor
  let tag ← readTag
  let name ← if first.isNone && tag.isSome then readAnchor else pure first
  return (name, ← tag.mapM fun t => expand t.1 t.2)

/-- The node that an alias stands for. -/
def lookUp (name : Text) : Read NodeId := do
  match (← get).names.find? (·.1 = name) with
  | some (_, n) => return n
  | none => throw .broken

/-- Adds a node. -/
def add (n : Node) : Read NodeId :=
  modifyGet fun s => (s.nodes.size, { s with nodes := s.nodes.push n })

/-- Adds a node that may have a name, which no node before it has. -/
def addNamed (name : Option Text) (n : Node) : Read NodeId := do
  match name with
  | none => add n
  | some name =>
    if (← get).names.any (·.1 = name) then throw .broken
    let id ← add n
    modify fun s => { s with names := (name, id) :: s.names }
    return id

/-- Adds a sequence, which has its number while its items are read. -/
def addSequence (name tag : Option Text) (items : Read (List NodeId)) : Read NodeId := do
  let t := Node.collectionTag .list tag
  let id ← addNamed name (.sequence t [])
  let items ← items
  modify fun s => { s with nodes := s.nodes.setIfInBounds id (.sequence t items) }
  return id

/-- Adds a mapping, which has its number while its entries are read. -/
def addMapping (name tag : Option Text) (entries : Read (List (NodeId × NodeId))) :
    Read NodeId := do
  let t := Node.collectionTag .map tag
  let id ← addNamed name (.mapping t [])
  let es ← entries
  modify fun s => { s with nodes := s.nodes.setIfInBounds id (.mapping t es) }
  return id

/-- A node that is left out behind its name or its tag. -/
def addNothing (name tag : Option Text) : Read NodeId := do
  if name.isSome || tag.isSome then
    addNamed name (.scalar (Node.scalarTag tag (.text []) true) (.text []))
  else throw .broken

/-- Where a node stands, which decides about the forms it can have. -/
inductive Position where
  /-- Within brackets. -/
  | flow
  /-- Among the entries of a block sequence. -/
  | block
  /-- In a block mapping, where a sequence need not be indented. -/
  | mapping
deriving DecidableEq, Repr

mutual

/-- A node. -/
def read : (fuel : Nat) → Position → Read NodeId
  | 0, _ => throw .broken
  | fuel + 1, position => do
    match ← peek with
    | .alias name => skip; lookUp name
    | _ =>
      let (name, tag) ← properties
      readContent fuel position name tag

/-- A node after its name and its tag, without which it cannot be left out. -/
def readContent : (fuel : Nat) → Position → (name tag : Option Text) → Read NodeId
  | 0, _, _, _ => throw .broken
  | fuel + 1, position, name, tag => do
    match ← peek with
    | .scalar content plain =>
      skip
      addNamed name (.scalar (Node.scalarTag tag content plain) content)
    | .flowSequenceStart =>
      addSequence name tag do skip; readFlowItems fuel true
    | .flowMappingStart =>
      addMapping name tag do skip; readFlowEntries fuel true
    | .blockEntry =>
      if position = .mapping then addSequence name tag (readDenseItems fuel)
      else addNothing name tag
    | .blockSequenceStart =>
      if position ≠ .flow then addSequence name tag do skip; readBlockItems fuel
      else addNothing name tag
    | .blockMappingStart =>
      if position ≠ .flow then addMapping name tag do skip; readBlockEntries fuel
      else addNothing name tag
    | _ => addNothing name tag

/-- A node, unless one of several tokens comes next, before which it is left
out. -/
def readUnless : (fuel : Nat) → List Token → Position → Read NodeId
  | 0, _, _ => throw .broken
  | fuel + 1, ends, position => do
    if ← before ends then add .empty else read fuel position

/-- The items of a block sequence up to its end. -/
def readBlockItems : (fuel : Nat) → Read (List NodeId)
  | 0 => throw .broken
  | fuel + 1 => do
    match ← peek with
    | .blockEntry =>
      skip
      let n ← readUnless fuel [.blockEntry, .blockEnd] .block
      return n :: (← readBlockItems fuel)
    | .blockEnd => skip; return []
    | _ => throw .broken

/-- The items of a block sequence that is not indented. -/
def readDenseItems : (fuel : Nat) → Read (List NodeId)
  | 0 => throw .broken
  | fuel + 1 => do
    match ← peek with
    | .blockEntry =>
      skip
      let n ← readUnless fuel [.blockEntry, .key, .value, .blockEnd] .block
      return n :: (← readDenseItems fuel)
    | _ => return []

/-- The value of an entry, if there is one. -/
def readEntryValue : (fuel : Nat) → List Token → Position → Read NodeId
  | 0, _, _ => throw .broken
  | fuel + 1, ends, position => do
    match ← peek with
    | .value => skip; readUnless fuel ends position
    | _ => add .empty

/-- The entries of a block mapping up to its end. -/
def readBlockEntries : (fuel : Nat) → Read (List (NodeId × NodeId))
  | 0 => throw .broken
  | fuel + 1 => do
    match ← peek with
    | .key =>
      skip
      let k ← readUnless fuel [.key, .value, .blockEnd] .mapping
      let v ← readEntryValue fuel [.key, .value, .blockEnd] .mapping
      return (k, v) :: (← readBlockEntries fuel)
    | .blockEnd => skip; return []
    | _ => throw .broken

/-- The items of a sequence within brackets up to its end. An item with a key is a
mapping of one entry. -/
def readFlowItems : (fuel : Nat) → (first : Bool) → Read (List NodeId)
  | 0, _ => throw .broken
  | fuel + 1, first => do
    if ← before [.flowSequenceEnd] then skip; return []
    if !first then expect .flowEntry
    match ← peek with
    | .flowSequenceEnd => skip; return []
    | .key =>
      skip
      let k ← readUnless fuel [.value, .flowEntry, .flowSequenceEnd] .flow
      let v ← readEntryValue fuel [.flowEntry, .flowSequenceEnd] .flow
      let n ← add (.mapping .map [(k, v)])
      return n :: (← readFlowItems fuel false)
    | _ =>
      let n ← read fuel .flow
      return n :: (← readFlowItems fuel false)

/-- The entries of a mapping within brackets up to its end. -/
def readFlowEntries : (fuel : Nat) → (first : Bool) → Read (List (NodeId × NodeId))
  | 0, _ => throw .broken
  | fuel + 1, first => do
    if ← before [.flowMappingEnd] then skip; return []
    if !first then expect .flowEntry
    match ← peek with
    | .flowMappingEnd => skip; return []
    | .key =>
      skip
      let k ← readUnless fuel [.value, .flowEntry, .flowMappingEnd] .flow
      let v ← readEntryValue fuel [.flowEntry, .flowMappingEnd] .flow
      return (k, v) :: (← readFlowEntries fuel false)
    | _ =>
      let k ← read fuel .flow
      let v ← add .empty
      return (k, v) :: (← readFlowEntries fuel false)

end

/-! ## Reading documents -/

/-- The abbreviations for tags that every document has. -/
def usualHandles : List (Text × Text) := [(['!'], ['!']), (['!', '!'], Tag.stem)]

/-- The directives of a document. A document has one version at most, which starts
with 1, and every abbreviation has one meaning. -/
def readDirectives : (fuel : Nat) → (versioned : Bool) → Read Unit
  | 0, _ => throw .broken
  | fuel + 1, versioned => do
    match ← peek with
    | .version major =>
      if versioned || major ≠ 1 then throw .broken
      skip
      readDirectives fuel true
    | .abbreviation handle stem =>
      if (← get).handles.any (·.1 = handle) then throw .broken
      skip
      modify fun s => { s with handles := s.handles ++ [(handle, stem)] }
      readDirectives fuel versioned
    | .directive => skip; readDirectives fuel versioned
    | _ => return ()

/-- The rest of a document that begins with directives or with a mark. -/
def readMarked (fuel : Nat) : Read NodeId := do
  readDirectives fuel false
  modify fun s => { s with handles := s.handles ++ usualHandles }
  expect .documentStart
  match ← peek with
  | .version _ | .abbreviation .. | .directive | .documentStart | .documentEnd | .streamEnd =>
    add .empty
  | _ => read fuel .block

/-- Marks for the end of a document, and then the end of the text. A second document
is not read, but its directives are. -/
def readEnd : (fuel : Nat) → Read Unit
  | 0 => throw .broken
  | fuel + 1 => do
    match ← peek with
    | .documentEnd => skip; readEnd fuel
    | .streamEnd => return ()
    | _ =>
      modify fun s => { s with handles := [] }
      readDirectives fuel false
      throw .broken

/-- The document of a text, if it has one. -/
def readDocument (fuel : Nat) : Read (Option NodeId) := do
  match ← peek with
  | .streamEnd => return none
  | .version _ | .abbreviation .. | .directive | .documentStart =>
    let n ← readMarked fuel
    readEnd fuel
    return some n
  | _ =>
    modify fun s => { s with handles := usualHandles }
    let n ← read fuel .block
    readEnd fuel
    return some n

/-- The document that tokens form, if there is one. -/
def ofTokens? (ts : Tokens) : Except Failure (Option Graph) := do
  let fuel := 4 * ts.list.length + 8
  let (root, s) ← (readDocument fuel).run { tokens := ts.list, failure := ts.failure }
  return root.map fun root => { nodes := s.nodes, root }

end Graph

end Worksheet.Yaml

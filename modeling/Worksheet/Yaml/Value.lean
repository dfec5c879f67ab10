import Worksheet.Value.Sets
import Worksheet.Yaml.Node.Merge
import Worksheet.Yaml.Scalar.Value

/-!
# The values of YAML texts

The nodes of a document stand for parts of its value. A list or a mapping is opened
as soon as it is met, and filled after all that have been opened before it; so
where several nodes have no value, the failure of the one that is reached first in
this order counts.

* `Graph.parts` finds what the nodes of a document stand for;
* `Part.value` puts the value of a node together from parts;
* `Yaml.read` gives the value of a YAML text.
-/

namespace Worksheet.Yaml

/-- What a node stands for, given by the numbers of other nodes. -/
inductive Part where
  /-- A value without parts, and whether it was written by the one word for what is
  no number. -/
  | value (v : Value) (nan : Bool)
  | list (items : List NodeId)
  /-- A list of pairs. -/
  | pairs (entries : List NodeEntry)
  | map (entries : List NodeEntry)
  | set (keys : List NodeId)

/-- The parts that have been found, and the nodes whose lists and mappings are open,
in the order in which they will be filled. -/
structure Parts where
  nodes : Nodes
  parts : Array (Option Part)
  opened : List NodeId := []

namespace Parts

/-- Finding parts. -/
abbrev Find := StateT Parts (Except Failure)

/-- What a node stands for, if this is known. -/
def part? (ps : Parts) (n : NodeId) : Option Part := ps.parts[n]?.join

/-- Notes what a node stands for. -/
def note (n : NodeId) (p : Part) : Find Unit :=
  modify fun ps => { ps with parts := ps.parts.setIfInBounds n (some p) }

/-! ## Opening parts -/

/-- The scalar that a node stands for; a mapping may have one under its key for the
default value. A mapping that is its own default value has no end. -/
def contentOf (ns : Nodes) : (fuel : Nat) → NodeId → Except Failure Content
  | 0, _ => .error (.fault .endless)
  | fuel + 1, n =>
    match ns[n]? with
    | some (.scalar _ c) => .ok c
    | some (.mapping _ es) =>
      match es.find? fun e => ns.tagOf e.1 = .default with
      | some e => contentOf ns fuel e.2
      | none => .error .broken
    | _ => .error .broken

/-- The value of a node that is no list and no mapping. A time has to be written as
a scalar itself. -/
def scalarOf (ns : Nodes) (n : NodeId) (tag : Tag) : Except Failure Part := do
  let c ← contentOf ns (ns.size + 1) n
  match tag, ns[n]? with
  | .moment, some (.mapping ..) => throw (.fault (.notTextual (lit "list")))
  | _, _ => return .value (← Scalar.value tag c) (tag == .real && Scalar.isNanWord c)

/-- Opens a node that has not been met before. -/
def openNode (n : NodeId) : Find Unit := do
  let ps ← get
  if (ps.part? n).isSome then return ()
  let later (p : Part) : Find Unit := do
    note n p
    modify fun ps => { ps with opened := ps.opened ++ [n] }
  match ps.nodes.tagOf n with
  | .list => later (.list [])
  | .orderedMap | .pairs => later (.pairs [])
  | .map => later (.map [])
  | .set => later (.set [])
  | tag => note n (← scalarOf ps.nodes n tag)

/-! ## Filling parts -/

/-- The value of a node that can be a key. -/
def key? (ps : Parts) (n : NodeId) : Option Value :=
  match ps.part? n with
  | some (.value v _) => some v
  | _ => none

/-- Whether two nodes are the same key: they are one node, or their values are the
same. What is no number is only the same if it is written by the one word for
it. -/
def sameKey (ps : Parts) (a b : NodeId) : Bool :=
  a == b ||
    match ps.part? a, ps.part? b with
    | some (.value _ true), some (.value _ true) => true
    | some (.value v _), some (.value w _) => v.sameKey w
    | _, _ => false

/-- The entries with one more, which takes the place of the value that its key
had. -/
def put (ps : Parts) (e : NodeEntry) : List NodeEntry → List NodeEntry
  | [] => [e]
  | f :: es => if ps.sameKey f.1 e.1 then (f.1, e.2) :: es else f :: ps.put e es

/-- Opens the key and the value of an entry of a mapping. Lists and mappings are no
keys. -/
def openEntry (e : NodeEntry) : Find Unit := do
  openNode e.1
  if ((← get).key? e.1).isNone then throw .broken
  openNode e.2

/-- The entries of a mapping, after merging, with one value for every key. -/
def fillMapping (n : NodeId) : Find (List NodeEntry) := do
  let nodes ← (← get).nodes.merge n
  modify fun ps => { ps with nodes }
  let es := nodes.entriesOf n
  es.forM openEntry
  let ps ← get
  return es.foldl (fun acc e => ps.put e acc) []

/-- A pair, which is written as a mapping of one entry. -/
def fillPair (n : NodeId) : Find NodeEntry := do
  match (← get).nodes[n]? with
  | some (.mapping _ [e]) =>
    openNode e.1
    openNode e.2
    return e
  | _ => throw .broken

/-- Fills a list or a mapping that is open. -/
def fill (n : NodeId) : Find Unit := do
  let ns := (← get).nodes
  match ns.tagOf n, ns[n]? with
  | .list, some (.sequence _ items) =>
    items.forM openNode
    note n (.list items)
  | .orderedMap, some (.sequence _ items) | .pairs, some (.sequence _ items) =>
    note n (.pairs (← items.mapM fillPair))
  | .map, some (.mapping ..) => note n (.map (← fillMapping n))
  | .set, some (.mapping ..) => note n (.set ((← fillMapping n).map (·.1)))
  | _, _ => throw .broken

/-- Fills what is open, until nothing is. -/
def fillAll : (fuel : Nat) → Find Unit
  | 0 => return ()
  | fuel + 1 => do
    match (← get).opened with
    | [] => return ()
    | n :: rest =>
      modify fun ps => { ps with opened := rest }
      fill n
      fillAll fuel

end Parts

/-- What the nodes of a document stand for. -/
def Graph.parts (g : Graph) : Except Failure Parts := do
  let start : Parts := { nodes := g.nodes, parts := Array.replicate g.nodes.size none }
  let (_, ps) ← (do Parts.openNode g.root; Parts.fillAll g.nodes.size : Parts.Find Unit).run start
  return ps

namespace Part

/-! ## Values from parts -/

/-- The number of levels from which on a list or a mapping within itself is not
looked into once more. Everything that is asked of a document is found on the
levels before. -/
def openLevels : Nat := 3

/-- A value of the same kind without parts. -/
def hollow : Part → Value
  | value v _ => v
  | list _ | pairs _ => .list []
  | map _ => .map []
  | set _ => .set []

/-- Values that have been put together, by the numbers of their nodes. -/
abbrev Build := StateM (Array (Option Value))

/-- The value of a node within others, of which the innermost one comes first; a
pair counts as a level without a node. A value in which nothing lies within itself
is the same everywhere. -/
def build (parts : Array (Option Part)) :
    (fuel : Nat) → (around : List (Option NodeId)) → NodeId → Build (Value × Bool)
  | 0, _, _ => return (.null, false)
  | fuel + 1, around, n => do
    match (← get)[n]?.join, parts[n]?.join with
    | some v, _ => return (v, true)
    | none, none => return (.null, true)
    | none, some (.value v _) => return (v, true)
    | none, some p =>
      let inner := some n :: around
      let within := around.idxOf? (some n)
      if within.any fun k => openLevels + k < around.length then
        return (.again (within.getD 0 + 1) p.hollow, false)
      let (v, plain) ← match p with
        | .value v _ => pure (v, true)
        | .list items => do
          let vs ← items.mapM (build parts fuel inner)
          pure (Value.list (vs.map (·.1)), vs.all (·.2))
        | .pairs es => do
          let vs ← es.mapM fun e => do
            return (← build parts fuel (none :: inner) e.1, ← build parts fuel (none :: inner) e.2)
          pure (Value.list (vs.map fun e => .pair e.1.1 e.2.1), vs.all fun e => e.1.2 && e.2.2)
        | .map es => do
          let vs ← es.mapM fun e => do
            return (← build parts fuel inner e.1, ← build parts fuel inner e.2)
          pure (Value.map (vs.map fun e => (e.1.1, e.2.1)), vs.all fun e => e.1.2 && e.2.2)
        | .set ks => do
          let vs ← ks.mapM (build parts fuel inner)
          pure (Value.setOf (vs.map (·.1)), true)
      match within with
      | some k => return (.again (k + 1) v, false)
      | none =>
        if plain then modify fun known => known.setIfInBounds n (some v)
        return (v, plain)

end Part

/-- The value of a document. -/
def Graph.value (g : Graph) : Except Failure Value := do
  let ps ← g.parts
  let known := Array.replicate ps.parts.size none
  return ((Part.build ps.parts (ps.parts.size + 8) [] g.root).run known).1.1

/-- The value of a YAML text; a text without a document stands for nothing. Lists and mappings
may stand within each other to any depth: there is no stack here that could run out, as one
does in a reader that calls itself once for every level. -/
def read (s : Source) : Except Failure Value := do
  match ← Graph.ofTokens? (Tokens.ofSource s) with
  | none => return .null
  | some g => g.value

end Worksheet.Yaml

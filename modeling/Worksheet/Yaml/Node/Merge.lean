import Worksheet.Yaml.Node

/-!
# Merging mappings

Under a merge key a mapping names others, whose entries are put in front of its own.
They are merged themselves before, and all of this happens in place: whoever refers
to one of them refers to the merged mapping from then on.

* `Nodes.merge` merges a mapping and those that it names.
-/

namespace Worksheet.Yaml

/-- The nodes of a document by their numbers. -/
abbrev Nodes := Array Node

/-- The key and the value of an entry. -/
abbrev NodeEntry := NodeId × NodeId

namespace Nodes

/-- The tag of a node. -/
def tagOf (ns : Nodes) (n : NodeId) : Tag := (ns[n]?.map Node.tag).getD .unknown

/-- The entries of a mapping. -/
def entriesOf (ns : Nodes) (n : NodeId) : List NodeEntry := (ns[n]?.map Node.entries).getD []

/-- The nodes after a mapping has been given other entries. -/
def withEntries (ns : Nodes) (n : NodeId) (es : List NodeEntry) : Nodes :=
  ns.setIfInBounds n (.mapping (ns.tagOf n) es)

/-- The nodes after the keys of entries have lost the meaning that they may have for
a mapping as a whole. -/
def plainKeys (ns : Nodes) (es : List NodeEntry) : Nodes :=
  es.foldl (fun ns e => if ns.tagOf e.1 = .default then ns.modify e.1 (·.retag .text) else ns) ns

/-- Whether an entry names mappings that are to be merged. -/
def isMerge (ns : Nodes) (e : NodeEntry) : Bool := ns.tagOf e.1 == .merge

/-- The value of the first merge key among entries, and the other entries. -/
def splitMerge? (ns : Nodes) : List NodeEntry → Option (NodeId × List NodeEntry)
  | [] => none
  | e :: es =>
    if ns.isMerge e then some (e.2, es)
    else (ns.splitMerge? es).map fun r => (r.1, e :: r.2)

/-- The number of merge keys. -/
def mergeCount (ns : Nodes) : Nat :=
  ns.foldl (fun count n => count + n.entries.countP ns.isMerge) 0

/-- Merges a mapping that has been found under a merge key, and puts its entries in
front of others. -/
def mergeBefore (merge : Nodes → NodeId → Except Failure Nodes) (r : Nodes × List NodeEntry)
    (n : NodeId) : Except Failure (Nodes × List NodeEntry) := do
  match r.1[n]? with
  | some (.mapping ..) =>
    let ns ← merge r.1 n
    return (ns, ns.entriesOf n ++ r.2)
  | _ => throw .broken

/-- Merges a mapping; `merged` are the entries that are in front of its own already.
Every step takes a merge key away. -/
def mergeFrom : (fuel : Nat) → (merged : List NodeEntry) → Nodes → NodeId → Except Failure Nodes
  | 0, _, _, _ => .error .broken
  | fuel + 1, merged, ns, n =>
    match ns.splitMerge? (ns.entriesOf n) with
    | none =>
      let own := ns.entriesOf n
      .ok ((ns.plainKeys own).withEntries n (merged ++ own))
    | some (value, rest) => do
      let ns := ns.withEntries n rest
      let named := match ns[value]? with
        | some (.sequence _ items) => items
        | _ => [value]
      let (ns, others) ← named.foldlM (mergeBefore (mergeFrom fuel [])) (ns, [])
      mergeFrom fuel (merged ++ others) ns n

/-- The nodes after a mapping has been merged with those that it names. -/
def merge (ns : Nodes) (n : NodeId) : Except Failure Nodes := mergeFrom (ns.mergeCount + 1) [] ns n

end Nodes

end Worksheet.Yaml

/-
Pattern graphs: what a query is to match, as lists of nodes and edges.

Unlike in a property graph a name may be listed twice, and an edge may name
nodes that are not listed.  A pattern graph is read from JSON or taken from a
property graph.
-/
import PropertyGraph.Graph.Basic

namespace PropertyGraph

/-- A node to match: its labels, one more label where it is given apart, and the
properties it must have. -/
structure PatternNode where
  id : NodeId
  labels : List String := []
  label : Option String := none
  properties : Properties := .empty
deriving DecidableEq

/-- An edge to match. -/
structure PatternEdge where
  key : EdgeKey
  properties : Properties := .empty
deriving DecidableEq

/-- The nodes and edges to match. -/
structure PatternGraph where
  nodes : List PatternNode := []
  edges : List PatternEdge := []
deriving DecidableEq

namespace PatternNode

/-- The distinct labels, the one given apart last. -/
def distinctLabels (n : PatternNode) : List String :=
  appendNew (appendNew [] n.labels) (n.label.filter (· ≠ "")).toList

/-- The JSON form. -/
def toJson (n : PatternNode) : Json :=
  .object ([("id", n.id.toJson), ("labels", .texts n.labels)] ++
    (n.label.map fun l => ("label", Json.text l)).toList ++
    [("properties", n.properties.toJson)])

end PatternNode

namespace PatternEdge

/-- The property that may ask for both directions. -/
def directionKey : String := "dir"

/-- Whether the edge may run in either direction. -/
def isUndirected (e : PatternEdge) : Bool :=
  ((e.properties.value? directionKey).bind Value.asText?).any fun s =>
    s.toList.map Char.toLower = "both".toList

/-- The JSON form. -/
def toJson (e : PatternEdge) : Json :=
  .object [("start", e.key.start.toJson), ("label", .text e.key.label),
    ("end", e.key.finish.toJson), ("properties", e.properties.toJson)]

end PatternEdge

namespace PatternGraph

/-- Properties that are given as an object or null. -/
def properties? (t : Json.Tree) : Option Properties :=
  t.value?.bind fun
    | .null => some .empty
    | .object members => some (.ofMembers members)
    | _ => none

/-- The node that a tree writes. -/
def nodeOfTree? (t : Json.Tree) : Option PatternNode := do
  let fields ← t.record? ["id", "labels", "label", "properties"]
  return {
    id := ← fields.required "id" NodeId.ofTree?
    labels := ← fields.withDefault "labels" [] (Json.Tree.list? Json.Tree.text?)
    label := ← fields.withDefault "label" none (Json.Tree.nullable? Json.Tree.text?)
    properties := ← fields.withDefault "properties" .empty properties? }

/-- The edge that a tree writes. -/
def edgeOfTree? (t : Json.Tree) : Option PatternEdge := do
  let fields ← t.fields? [["start", "source"], ["label"], ["end", "target"], ["properties"]]
  let start ← fields.required "start" NodeId.ofTree?
  let label ← fields.required "label" Json.Tree.text?
  let finish ← fields.required "end" NodeId.ofTree?
  let properties ← fields.withDefault "properties" .empty properties?
  return ⟨⟨start, label, finish⟩, properties⟩

/-- The pattern graph that a tree writes. -/
def ofTree? (t : Json.Tree) : Option PatternGraph := do
  let fields ← t.record? ["nodes", "edges"]
  let nodes ← fields.withDefault "nodes" [] (Json.Tree.list? nodeOfTree?)
  let edges ← fields.withDefault "edges" [] (Json.Tree.list? edgeOfTree?)
  return ⟨nodes, edges⟩

/-- The pattern graph that a text writes. -/
def parse? (s : String) : Option PatternGraph := (Json.Tree.read? s).bind ofTree?

/-- The JSON form. -/
def toJson (p : PatternGraph) : Json :=
  .object [("nodes", .array (p.nodes.map PatternNode.toJson)),
    ("edges", .array (p.edges.map PatternEdge.toJson))]

/-- The pattern that matches what a graph stores. -/
def ofGraph (g : Graph) : PatternGraph where
  nodes := g.nodes.values.map fun n =>
    { id := n.id, labels := n.labels, properties := n.properties }
  edges := g.edges.values.map fun e => ⟨e.key, e.properties⟩

end PatternGraph

end PropertyGraph

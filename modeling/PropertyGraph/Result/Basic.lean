/-
Results of queries: rows that hold references to nodes and edges, which are
listed beside them, each once.
-/
import PropertyGraph.Json.Fields
import PropertyGraph.OrderedMap

namespace PropertyGraph

/-- A node as results show it. -/
structure ShownNode where
  id : String
  labels : List String
  properties : List (String × Json)
deriving Inhabited

/-- An edge as results show it. -/
structure ShownEdge where
  id : String
  label : String
  start : String
  finish : String
  properties : List (String × Json)
deriving Inhabited

/-- The rows of a result, and the nodes and edges that they refer to, by their
references. -/
structure ResultSet where
  matched : List (List (String × Json)) := []
  nodes : OrderedMap String ShownNode := .empty
  edges : OrderedMap String ShownEdge := .empty

namespace ShownNode

/-- The JSON form. -/
def toJson (v : ShownNode) : Json :=
  .object [("id", .text v.id), ("labels", .texts v.labels), ("properties", .object v.properties)]

end ShownNode

namespace ShownEdge

/-- The JSON form. -/
def toJson (v : ShownEdge) : Json :=
  .object [("id", .text v.id), ("label", .text v.label),
    ("start", .object [("id", .text v.start)]), ("end", .object [("id", .text v.finish)]),
    ("properties", .object v.properties)]

end ShownEdge

namespace ResultSet

/-- The members of a JSON object. -/
def members? (t : Json.Tree) : Option (List (String × Json)) :=
  t.value?.bind fun
    | .object members => some members
    | _ => none

/-- The node view that a tree writes. -/
def nodeOfTree? (t : Json.Tree) : Option ShownNode := do
  let f ← t.record? ["id", "labels", "properties"]
  return {
    id := ← f.required "id" Json.Tree.text?
    labels := ← f.required "labels" (Json.Tree.list? Json.Tree.text?)
    properties := ← f.required "properties" members? }

/-- The reference that a tree writes. -/
def referenceOfTree? (t : Json.Tree) : Option String := do
  let f ← t.record? ["id"]
  f.required "id" Json.Tree.text?

/-- The edge view that a tree writes. -/
def edgeOfTree? (t : Json.Tree) : Option ShownEdge := do
  let f ← t.record? ["id", "label", "start", "end", "properties"]
  return {
    id := ← f.required "id" Json.Tree.text?
    label := ← f.required "label" Json.Tree.text?
    start := ← f.required "start" referenceOfTree?
    finish := ← f.required "end" referenceOfTree?
    properties := ← f.required "properties" members? }

/-- A map by references that a tree writes. -/
def mapOfTree? {α : Type} (decode : Json.Tree → Option α) : Json.Tree → Option (OrderedMap String α)
  | .object members => (members.mapM fun m => (decode m.2).map fun v => (m.1, v)).map .ofList
  | _ => none

/-- The result that a tree writes. -/
def ofTree? (t : Json.Tree) : Option ResultSet := do
  let f ← t.record? ["matches", "nodes", "edges"]
  return {
    matched := ← f.required "matches" (Json.Tree.list? members?)
    nodes := ← f.required "nodes" (mapOfTree? nodeOfTree?)
    edges := ← f.required "edges" (mapOfTree? edgeOfTree?) }

/-- The members of the JSON form. -/
def jsonMembers (r : ResultSet) : List (String × Json) :=
  [("matches", .array (r.matched.map .object)),
    ("nodes", .object (r.nodes.entries.map fun e => (e.1, e.2.toJson))),
    ("edges", .object (r.edges.entries.map fun e => (e.1, e.2.toJson)))]

/-- The result with a node listed, unless its reference is listed already. -/
def addNode (r : ResultSet) (v : ShownNode) : ResultSet :=
  if r.nodes.contains v.id then r else { r with nodes := r.nodes.insert v.id v }

/-- The result with an edge listed, unless its reference is listed already. -/
def addEdge (r : ResultSet) (v : ShownEdge) : ResultSet :=
  if r.edges.contains v.id then r else { r with edges := r.edges.insert v.id v }

end ResultSet

end PropertyGraph

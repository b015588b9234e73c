/-
Records: one node or one edge, as a line of JSON.

A record is an object with a `type`, or an array that starts with it; the fields
follow by name or in order.  What a record gives as properties may be any JSON
value, and all of a record has to be readable.
-/
import PropertyGraph.Graph.Basic
import PropertyGraph.Json.Printer

namespace PropertyGraph

/-- A node or an edge as it is recorded, its properties as they are written. -/
inductive Record where
  | node (id : NodeId) (labels : List String) (properties : List (String × Json))
  | edge (key : EdgeKey) (properties : List (String × Json))
deriving Inhabited

namespace Record

/-- The members of a JSON object, none of what is no object. -/
def objectMembers? (t : Json.Tree) : Option (List (String × Json)) :=
  t.value?.map fun
    | .object members => members
    | _ => []

/-- The name that a reference to a node holds. -/
def reference? (t : Json.Tree) : Option NodeId := do
  let fields ← t.record? ["id"]
  fields.required "id" NodeId.ofTree?

/-- The fields of a node. -/
def nodeOfTree? (t : Json.Tree) : Option Record := do
  let fields ← t.record? ["id", "labels", "properties"]
  let id ← fields.required "id" NodeId.ofTree?
  let labels ← fields.withDefault "labels" [] (Json.Tree.list? Json.Tree.text?)
  let properties ← fields.withDefault "properties" [] objectMembers?
  return .node id labels properties

/-- The fields of an edge. -/
def edgeOfTree? (t : Json.Tree) : Option Record := do
  let fields ← t.record? ["label", "start", "end", "properties"]
  let label ← fields.required "label" Json.Tree.text?
  let start ← fields.required "start" reference?
  let finish ← fields.required "end" reference?
  let properties ← fields.withDefault "properties" [] objectMembers?
  return .edge ⟨start, label, finish⟩ properties

/-- The fields of a record of a type. -/
def ofTagged? (tag : String) (t : Json.Tree) : Option Record :=
  if tag = "node" then nodeOfTree? t
  else if tag = "relationship" ∨ tag = "edge" then edgeOfTree? t
  else none

/-- The record that a tree writes. -/
def ofTree? (t : Json.Tree) : Option Record := do
  let _ ← t.value?
  match t with
  | .array (tag :: items) => ofTagged? (← tag.text?) (.array items)
  | .object _ =>
    let tag ← (← t.record? ["type"]).required "type" Json.Tree.text?
    ofTagged? tag t
  | _ => none

/-- The record that a text writes. -/
def parse? (s : String) : Option Record := (Json.Tree.read? s).bind ofTree?

/-- The JSON form. -/
def toJson : Record → Json
  | node id labels properties =>
    .object [("type", .text "node"), ("id", id.toJson), ("labels", .texts labels),
      ("properties", .object properties)]
  | edge k properties =>
    .object [("type", .text "relationship"), ("label", .text k.label),
      ("start", .object [("id", k.start.toJson)]), ("end", .object [("id", k.finish.toJson)]),
      ("properties", .object properties)]

/-- The line that records it. -/
def line (r : Record) : String := r.toJson.compact

/-- Whether an edge is recorded. -/
def isEdge : Record → Bool
  | node .. => false
  | edge .. => true

/-- The record of a stored node. -/
def ofNode (n : Node) : Record :=
  node n.id n.labels (n.properties.entries.map fun e => (e.1, e.2.toJson))

/-- The record of a stored edge. -/
def ofEdge (e : Edge) : Record :=
  edge e.key (e.properties.entries.map fun e => (e.1, e.2.toJson))

end Record

end PropertyGraph

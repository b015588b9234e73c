/-
Rows of results, folded into a `ResultSet`.

A cell is first taken as a `Datum`, which keeps nodes, relations and paths apart
from plain data.  `Datum.render` then lists what a datum mentions as it comes to
it, and shows the datum with references in its place.  `ResultSet.addRow` renders
a row column by column and appends it.
-/
import PropertyGraph.Result.Basic
import PropertyGraph.Result.Cell

namespace PropertyGraph

/-- Entries in the order of the code points of their keys; of a repeated key the
last value stands. -/
def sortedEntries {α : Type} (l : List (String × α)) : List (String × α) :=
  (OrderedMap.ofList l).entries.mergeSort fun a b => a.1 ≤ b.1

/-- A node in a row. -/
structure FoundNode where
  id : Int64
  labels : List String
  properties : List (String × Json)
deriving Inhabited

/-- A relation in a row, with its ends. -/
structure FoundRelation where
  id : Int64
  start : Int64
  finish : Int64
  label : String
  properties : List (String × Json)
deriving Inhabited

/-- A relation in a path, without its ends. -/
structure LooseRelation where
  id : Int64
  label : String
  properties : List (String × Json)
deriving Inhabited

/-- The relation with its ends: from `previous` to `next`, or the other way. -/
def LooseRelation.between (r : LooseRelation) (forward : Bool) (previous next : Int64) :
    FoundRelation :=
  if forward then ⟨r.id, previous, next, r.label, r.properties⟩
  else ⟨r.id, next, previous, r.label, r.properties⟩

/-- The reference to a node. -/
def nodeReference (id : Int64) : String := "N:" ++ toString id.toInt

/-- The reference to a relation. -/
def relationReference (id : Int64) : String := "R:" ++ toString id.toInt

namespace FoundNode

/-- The reference to the node. -/
def reference (n : FoundNode) : String := nodeReference n.id

/-- The node as results show it. -/
def view (n : FoundNode) : ShownNode := ⟨n.reference, n.labels, n.properties⟩

end FoundNode

namespace FoundRelation

/-- The reference to the relation. -/
def reference (r : FoundRelation) : String := relationReference r.id

/-- The relation as results show it. -/
def view (r : FoundRelation) : ShownEdge :=
  ⟨r.reference, r.label, nodeReference r.start, nodeReference r.finish, r.properties⟩

end FoundRelation

/-! ### Plain data -/

namespace Cell

mutual

/-- A cell as plain data; what is none is described. -/
def toJson : Cell → Json
  | null => .null
  | boolean b => .bool b
  | integer n => .int n.toInt
  | float x => if x.isFinite then .float x else .null
  | text s => .text s
  | list items => .array (toJsons items)
  | map entries => .object (sortedEntries (entryJsons entries))
  | node id labels properties => .text (node id labels properties).description
  | relation id start finish label properties =>
    .text (relation id start finish label properties).description
  | unbound id label properties => .text (unbound id label properties).description
  | path nodes relations indices => .text (path nodes relations indices).description
  | point system x y => .text (point system x y).description

/-- All cells of a list as plain data. -/
def toJsons : List Cell → List Json
  | [] => []
  | c :: cs => toJson c :: toJsons cs

/-- All entries of a map as plain data. -/
def entryJsons : List (String × Cell) → List (String × Json)
  | [] => []
  | (k, c) :: es => (k, toJson c) :: entryJsons es

end

/-- Properties as plain data, sorted. -/
def propertyJsons (properties : List (String × Cell)) : List (String × Json) :=
  sortedEntries (entryJsons properties)

/-- The text that a cell is. -/
def text? : Cell → Option String
  | text s => some s
  | _ => none

/-- The integer that a cell is. -/
def integer? : Cell → Option Int
  | integer n => some n.toInt
  | _ => none

/-- The node that a cell is; labels that are no texts are left out. -/
def node? : Cell → Option FoundNode
  | node id labels properties => some ⟨id, labels.filterMap text?, propertyJsons properties⟩
  | _ => none

/-- The relation without its ends that a cell is. -/
def loose? : Cell → Option LooseRelation
  | unbound id label properties => some ⟨id, label, propertyJsons properties⟩
  | _ => none

end Cell

/-! ### Paths -/

namespace Walk

/-- The item at an index counted from one, its sign ignored. -/
def atSigned? {α : Type} (l : List α) (index : Int) : Option α :=
  if index = 0 then none else l[index.natAbs - 1]?

/-- The item at an index counted from zero. -/
def at? {α : Type} (l : List α) (index : Int) : Option α :=
  if index < 0 then none else l[index.toNat]?

/-- The relations of a walk that stands at a node.  A step is given by two
indices: of its relation, counted from one and negative where the relation points
against the walk, and of the node that it leads to.  The first step out of range
ends the walk, as does an index without a partner. -/
def resolve (nodes : List Int64) (relations : List LooseRelation) :
    Int64 → List Int → List FoundRelation
  | previous, r :: n :: indices =>
    match atSigned? relations r, at? nodes n with
    | some relation, some next =>
      relation.between (0 < r) previous next :: resolve nodes relations next indices
    | _, _ => []
  | _, _ => []

/-- The relations of the walk that starts at the first node. -/
def relations (nodes : List Int64) (loose : List LooseRelation) (indices : List Int) :
    List FoundRelation :=
  match nodes with
  | [] => []
  | first :: _ => resolve nodes loose first indices

end Walk

/-! ### Data -/

/-- A cell taken as data: graph entities are kept apart from plain values. -/
inductive Datum where
  | scalar (value : Json)
  | list (items : List Datum)
  | map (entries : List (String × Datum))
  | node (n : FoundNode)
  | relation (r : FoundRelation)
  | path (nodes : List FoundNode) (relations : List FoundRelation)
deriving Inhabited

namespace Cell

mutual

/-- A cell taken as data.  Parts of a path that do not belong there are left
out. -/
def datum : Cell → Datum
  | list items => .list (data items)
  | map entries => .map (sortedEntries (entryData entries))
  | node id labels properties =>
    .node ⟨id, labels.filterMap text?, propertyJsons properties⟩
  | relation id start finish label properties =>
    .relation ⟨id, start, finish, label, propertyJsons properties⟩
  | path nodes relations indices =>
    let found := nodes.filterMap node?
    .path found (Walk.relations (found.map FoundNode.id) (relations.filterMap loose?)
      (indices.filterMap integer?))
  | null => .scalar .null
  | boolean b => .scalar (.bool b)
  | integer n => .scalar (.int n.toInt)
  | float x => .scalar (float x).toJson
  | text s => .scalar (.text s)
  | unbound id label properties => .scalar (unbound id label properties).toJson
  | point system x y => .scalar (point system x y).toJson

/-- All cells of a list taken as data. -/
def data : List Cell → List Datum
  | [] => []
  | c :: cs => datum c :: data cs

/-- All entries of a map taken as data. -/
def entryData : List (String × Cell) → List (String × Datum)
  | [] => []
  | (k, c) :: es => (k, datum c) :: entryData es

end

end Cell

/-- The result with a node listed, and its reference. -/
def ResultSet.listNode (r : ResultSet) (n : FoundNode) : ResultSet × String :=
  (r.addNode n.view, n.reference)

/-- The result with a relation listed, and its reference. -/
def ResultSet.listRelation (r : ResultSet) (e : FoundRelation) : ResultSet × String :=
  (r.addEdge e.view, e.reference)

/-- The result with relations listed one by one, and their references. -/
def ResultSet.listRelations (r : ResultSet) : List FoundRelation → ResultSet × List String
  | [] => (r, [])
  | e :: es =>
    let (r, reference) := r.listRelation e
    let (r, references) := listRelations r es
    (r, reference :: references)

namespace Datum

mutual

/-- The result with all listed that a datum mentions, and the datum with
references in place of entities; a path shows its first node, its relations and
its last node. -/
def render (r : ResultSet) : Datum → ResultSet × Json
  | scalar value => (r, value)
  | list items =>
    let (r, shown) := renderList r items
    (r, .array shown)
  | map entries =>
    let (r, shown) := renderEntries r entries
    (r, .object shown)
  | node n =>
    let (r, reference) := r.listNode n
    (r, .text reference)
  | relation e =>
    let (r, reference) := r.listRelation e
    (r, .text reference)
  | path nodes relations =>
    let first := nodes.head?.map FoundNode.reference
    let last := nodes.getLast?.map FoundNode.reference
    let r := nodes.foldl (fun r n => (r.listNode n).1) r
    let (r, references) := r.listRelations relations
    (r, .array [Json.orNull .text first, .texts references, Json.orNull .text last])

/-- The data of a list, one by one. -/
def renderList (r : ResultSet) : List Datum → ResultSet × List Json
  | [] => (r, [])
  | d :: ds =>
    let (r, shown) := render r d
    let (r, others) := renderList r ds
    (r, shown :: others)

/-- The entries of a map, one by one. -/
def renderEntries (r : ResultSet) : List (String × Datum) → ResultSet × List (String × Json)
  | [] => (r, [])
  | (k, d) :: es =>
    let (r, shown) := render r d
    let (r, others) := renderEntries r es
    (r, (k, shown) :: others)

end

end Datum

/-! ### Rows -/

/-- A row: its columns by name. -/
abbrev Row := OrderedMap String Datum

/-- The row of cells under the names of their columns. -/
def Row.ofCells (columns : List (String × Cell)) : Row := .ofList (Cell.entryData columns)

/-- The result with a row appended, and all that it mentions listed. -/
def ResultSet.addRow (r : ResultSet) (row : Row) : ResultSet :=
  let (r, shown) := Datum.renderEntries r row.entries
  { r with matched := r.matched ++ [shown] }

end PropertyGraph

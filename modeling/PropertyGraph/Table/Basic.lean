/-
The nodes and edges of a graph as tables for bulk import.

A table has fixed columns and one column per property key.  `Graph.writeTables?`
writes one table of all nodes and one of all edges, with every key that occurs;
`Graph.writePartition?` writes a table for each set of keys, so that no cell of
it is left empty for want of the property.
-/
import PropertyGraph.Graph.Basic
import PropertyGraph.Table.Csv

namespace PropertyGraph

/-- What stands between several values or labels in one cell. -/
def cellSeparator : String := ";"

/-- A row of a table before its columns are chosen: fixed cells and
properties. -/
structure TableItem where
  cells : List String
  properties : Properties
deriving DecidableEq

namespace TableItem

/-- The row of a node: its name and its labels. -/
def ofNode (n : Node) : TableItem :=
  ⟨[n.id.display, cellSeparator.intercalate n.labels], n.properties⟩

/-- The row of an edge: its start, its label and its end. -/
def ofEdge (e : Edge) : TableItem :=
  ⟨[e.key.start.display, e.key.label, e.key.finish.display], e.properties⟩

/-- The cell under a key: the values, or nothing. -/
def cell (i : TableItem) (key : String) : String :=
  (i.properties.get? key).elim "" (Property.join · cellSeparator)

/-- The cells of a row with the given property columns. -/
def row (i : TableItem) (keys : List String) : List String := i.cells ++ keys.map i.cell

/-- The keys in the order of their code points. -/
def sortedKeys (i : TableItem) : List String :=
  i.properties.keys.mergeSort fun a b => a ≤ b

end TableItem

/-- A table: its property columns, and its items. -/
structure Table where
  keys : List String
  items : List TableItem
deriving DecidableEq

namespace Table

/-- The table of all items under every key that occurs, first come first. -/
def ofItems (items : List TableItem) : Table :=
  ⟨items.foldl (fun keys i => appendNew keys i.properties.keys) [], items⟩

/-- The tables of the items by their sets of keys, first come first. -/
def partition (items : List TableItem) : List Table :=
  let groups : OrderedMap (List String) (List TableItem) :=
    items.foldl (fun m i => m.insert i.sortedKeys ((m.get? i.sortedKeys).getD [] ++ [i])) .empty
  groups.entries.map fun e => ⟨e.1, e.2⟩

/-- The rows of a table, the heading first. -/
def rows (t : Table) (columns : List String) : List (List String) :=
  (columns ++ t.keys) :: t.items.map (TableItem.row · t.keys)

/-- The text of a table. -/
def text (t : Table) (columns : List String) : String := Csv.text (t.rows columns)

end Table

/-- A table that has been written: its property columns, the number of rows below
the heading, and its text. -/
structure WrittenTable where
  keys : List String
  rows : Nat
  text : String
deriving DecidableEq

namespace Table

/-- Writes the row of an item, and counts it. -/
def writeItem? (keys : List String) (state : Csv.Writer × Nat) (i : TableItem) :
    Option (Csv.Writer × Nat) :=
  (state.1.write? (i.row keys)).map fun w => (w, state.2 + 1)

/-- Writes the heading of a table and then its items, unless their rows differ in
width. -/
def write? (t : Table) (columns : List String) : Option WrittenTable := do
  let heading ← Csv.Writer.write? {} (columns ++ t.keys)
  let (w, rows) ← t.items.foldlM (writeItem? t.keys) (heading, 0)
  return { keys := t.keys, rows, text := w.text }

end Table

/-- The fixed columns of a node table. -/
def nodeHeading : List String := [":ID", ":LABEL"]

/-- The fixed columns of an edge table. -/
def edgeHeading : List String := [":START_ID", ":TYPE", ":END_ID"]

namespace Graph

/-- The nodes as rows. -/
def nodeItems (g : Graph) : List TableItem := g.nodes.values.map .ofNode

/-- The edges as rows. -/
def edgeItems (g : Graph) : List TableItem := g.edges.values.map .ofEdge

/-- The table of the nodes. -/
def nodeTable (g : Graph) : Table := .ofItems g.nodeItems

/-- The table of the edges. -/
def edgeTable (g : Graph) : Table := .ofItems g.edgeItems

/-- The tables of the nodes by their sets of keys. -/
def nodePartition (g : Graph) : List Table := Table.partition g.nodeItems

/-- The tables of the edges by their sets of keys. -/
def edgePartition (g : Graph) : List Table := Table.partition g.edgeItems

/-- The texts of the table of the nodes and of the table of the edges. -/
def writeTables? (g : Graph) : Option (String × String) := do
  let nodes ← g.nodeTable.write? nodeHeading
  let edges ← g.edgeTable.write? edgeHeading
  return (nodes.text, edges.text)

/-- The tables of the nodes and the tables of the edges, by their sets of keys. -/
def writePartition? (g : Graph) : Option (List WrittenTable × List WrittenTable) := do
  let nodes ← g.nodePartition.mapM (Table.write? · nodeHeading)
  let edges ← g.edgePartition.mapM (Table.write? · edgeHeading)
  return (nodes, edges)

end Graph

end PropertyGraph

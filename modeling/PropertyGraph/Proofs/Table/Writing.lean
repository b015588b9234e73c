/-
Tables as they are written, and what a reader finds in them.

A writer refuses a row that is not as wide as the first.  The row of a node or an
edge has as many fixed cells as there are fixed columns, and one cell for each key
of its table, so no row of a graph is refused, whatever its names and values are.
What has been written is a grid: below the heading there is a row for each node or
edge, and every cell of it holds what it should.

* **`Table.write?_eq_some_iff`** — when a table is written, and what comes of it;
* **`Graph.writeTables?_eq`**, **`Graph.writePartition?_eq`** — the tables of a
  graph are written;
* **`Table.holds_text`** — what a reader finds in a table;
* **`Graph.tables_decode`** — what a reader finds in all tables of a graph.
-/
import PropertyGraph.Proofs.Mapped
import PropertyGraph.Proofs.Table.Partition
import PropertyGraph.Proofs.Table.Reading

namespace PropertyGraph

/-! ### Writing -/

namespace Csv

theorem text_cons (row : List String) (rows : List (List String)) :
    text (row :: rows) = String.ofList (rowText row) ++ text rows := by
  rw [text, List.flatMap_cons, String.ofList_append]
  rfl

theorem Writer.write?_eq_some_iff {width : Nat} {text : String} {cells : List String}
    {w : Writer} : write? ⟨some width, text⟩ cells = some w ↔
      cells.length = width ∧ w = ⟨some width, text ++ String.ofList (rowText cells)⟩ := by
  rw [write?, Option.all_some]
  by_cases h : width = cells.length
  · subst h
    simp [eq_comm]
  · simp [h, Ne.symm h]

end Csv

theorem TableItem.length_row (i : TableItem) (keys : List String) :
    (i.row keys).length = i.cells.length + keys.length := by
  rw [row, List.length_append, List.length_map]

namespace Table

variable {t : Table} {columns keys : List String}

/-- A table once it is written. -/
def written (t : Table) (columns : List String) : WrittenTable :=
  { keys := t.keys, rows := t.items.length, text := t.text columns }

theorem writeItem?_eq_some_iff {width rows : Nat} {text : String} {i : TableItem}
    {state : Csv.Writer × Nat} : writeItem? keys (⟨some width, text⟩, rows) i = some state ↔
      (i.row keys).length = width ∧
      state = (⟨some width, text ++ String.ofList (Csv.rowText (i.row keys))⟩, rows + 1) := by
  rw [writeItem?, Option.map_eq_some_iff]
  constructor
  · rintro ⟨w, hw, rfl⟩
    obtain ⟨hwidth, rfl⟩ := Csv.Writer.write?_eq_some_iff.1 hw
    exact ⟨hwidth, rfl⟩
  · rintro ⟨hwidth, rfl⟩
    exact ⟨_, Csv.Writer.write?_eq_some_iff.2 ⟨hwidth, rfl⟩, rfl⟩

/-- The induction is on the items that are still to be written. -/
theorem foldlM_writeItem_eq_some_iff {width rows : Nat} {text : String} {items : List TableItem}
    {state : Csv.Writer × Nat} :
    items.foldlM (writeItem? keys) (⟨some width, text⟩, rows) = some state ↔
      (∀ i ∈ items, (i.row keys).length = width) ∧
      state = (⟨some width, text ++ Csv.text (items.map (TableItem.row · keys))⟩,
        rows + items.length) := by
  induction items generalizing text rows with
  | nil => simp [Csv.text, eq_comm]
  | cons i items ih =>
    rw [List.foldlM_cons, Option.bind_eq_bind, Option.bind_eq_some_iff, List.forall_mem_cons,
      List.map_cons, Csv.text_cons, ← String.append_assoc, List.length_cons,
      Nat.add_comm items.length, ← Nat.add_assoc]
    constructor
    · rintro ⟨next, hnext, hrest⟩
      obtain ⟨hi, rfl⟩ := writeItem?_eq_some_iff.1 hnext
      obtain ⟨hitems, rfl⟩ := ih.1 hrest
      exact ⟨⟨hi, hitems⟩, rfl⟩
    · rintro ⟨⟨hi, hitems⟩, rfl⟩
      exact ⟨_, writeItem?_eq_some_iff.2 ⟨hi, rfl⟩, ih.2 ⟨hitems, rfl⟩⟩

/-- A table is written exactly if its items have a cell for each fixed column. -/
theorem write?_eq_some_iff {result : WrittenTable} :
    t.write? columns = some result ↔
      (∀ i ∈ t.items, i.cells.length = columns.length) ∧ result = t.written columns := by
  have hheading : Csv.Writer.write? {} (columns ++ t.keys) =
      some ⟨some (columns ++ t.keys).length, String.ofList (Csv.rowText (columns ++ t.keys))⟩ := by
    rw [Csv.Writer.write?, Option.all_none, if_pos rfl, String.empty_append]
  have hwidth : ∀ i : TableItem, (i.row t.keys).length = (columns ++ t.keys).length ↔
      i.cells.length = columns.length := by
    intro i
    rw [i.length_row, List.length_append, Nat.add_right_cancel_iff]
  have hwritten : t.written columns =
      { keys := t.keys, rows := 0 + t.items.length
        text := String.ofList (Csv.rowText (columns ++ t.keys)) ++
          Csv.text (t.items.map (TableItem.row · t.keys)) } := by
    rw [Nat.zero_add, ← Csv.text_cons]
    rfl
  rw [write?, hheading, Option.bind_eq_bind, Option.bind_some, Option.bind_eq_bind,
    Option.bind_eq_some_iff]
  simp only [foldlM_writeItem_eq_some_iff, hwidth]
  constructor
  · rintro ⟨state, ⟨hitems, rfl⟩, hresult⟩
    exact ⟨hitems, (Option.some.inj hresult).symm.trans hwritten.symm⟩
  · rintro ⟨hitems, rfl⟩
    exact ⟨_, ⟨hitems, rfl⟩, congrArg some hwritten.symm⟩

end Table

namespace Graph

theorem cells_of_mem_nodeItems {g : Graph} {i : TableItem} (hi : i ∈ g.nodeItems) :
    i.cells.length = nodeHeading.length := by
  obtain ⟨e, -, rfl⟩ := List.mem_map.1 hi
  rfl

theorem cells_of_mem_edgeItems {g : Graph} {i : TableItem} (hi : i ∈ g.edgeItems) :
    i.cells.length = edgeHeading.length := by
  obtain ⟨e, -, rfl⟩ := List.mem_map.1 hi
  rfl

theorem writeTables?_eq (g : Graph) :
    g.writeTables? = some (g.nodeTable.text nodeHeading, g.edgeTable.text edgeHeading) := by
  rw [writeTables?, Table.write?_eq_some_iff.2 ⟨fun i hi => cells_of_mem_nodeItems hi, rfl⟩,
    Table.write?_eq_some_iff.2 ⟨fun i hi => cells_of_mem_edgeItems hi, rfl⟩]
  rfl

theorem writePartition?_eq (g : Graph) :
    g.writePartition? = some (g.nodePartition.map (Table.written · nodeHeading),
      g.edgePartition.map (Table.written · edgeHeading)) := by
  have hnodes : g.nodePartition.mapM (Table.write? · nodeHeading) =
      some (g.nodePartition.map (Table.written · nodeHeading)) :=
    mapM_eq_some_map fun t ht => Table.write?_eq_some_iff.2
      ⟨fun i hi => cells_of_mem_nodeItems (Table.mem_of_mem_partition ht hi), rfl⟩
  have hedges : g.edgePartition.mapM (Table.write? · edgeHeading) =
      some (g.edgePartition.map (Table.written · edgeHeading)) :=
    mapM_eq_some_map fun t ht => Table.write?_eq_some_iff.2
      ⟨fun i hi => cells_of_mem_edgeItems (Table.mem_of_mem_partition ht hi), rfl⟩
  rw [writePartition?, hnodes, hedges]
  rfl

end Graph

/-! ### Reading -/

/-- A reader finds a heading in a text and below it a row for each item: its fixed
cells, and under each key the texts of its values there, or nothing.  All rows are
as wide as the heading. -/
structure Csv.Holds (text : String) (columns keys : List String) (items : List TableItem) :
    Prop where
  rows_eq : rows text = (columns ++ keys) :: items.map fun i => i.cells ++ keys.map fun key =>
    (i.properties.get? key).elim "" fun p => cellSeparator.intercalate (p.values.map Value.display)
  width : ∀ row ∈ rows text, row.length = columns.length + keys.length

/-- A reader finds in each table the items that have just its keys, and every item
has its table. -/
structure Csv.HoldsByKeys (tables : List WrittenTable) (columns : List String)
    (items : List TableItem) : Prop where
  holds : ∀ t ∈ tables,
    Holds t.text columns t.keys (items.filter fun i => i.properties.SortsTo t.keys)
  covers : ∀ i ∈ items, ∃ t ∈ tables, i.properties.SortsTo t.keys

namespace Table

theorem holds_text {t : Table} {columns : List String} (hcolumns : columns ≠ [])
    (hitems : ∀ i ∈ t.items, i.cells.length = columns.length) :
    Csv.Holds (t.text columns) columns t.keys t.items := by
  -- There are fixed columns, so no row is without cells.
  have hcells : ∀ i ∈ t.items, i.cells ≠ [] := by
    intro i hi hnil
    have hlength := hitems i hi
    rw [hnil] at hlength
    exact hcolumns (List.length_eq_zero_iff.1 hlength.symm)
  have hrows := rows_text hcolumns hcells
  refine ⟨hrows, ?_⟩
  rw [hrows, rows, List.forall_mem_cons, List.forall_mem_map]
  refine ⟨List.length_append, fun i hi => ?_⟩
  rw [i.length_row, hitems i hi]

/-- The columns of the table of all items are their keys, first come first. -/
theorem keys_ofItems (items : List TableItem) :
    (ofItems items).keys = appendNew [] (items.flatMap fun i => i.properties.keys) := by
  suffices hfold : ∀ seen : List String,
      items.foldl (fun keys i => appendNew keys i.properties.keys) seen =
        appendNew seen (items.flatMap fun i => i.properties.keys) from hfold []
  induction items with
  | nil => exact fun seen => rfl
  | cons i items ih =>
    intro seen
    rw [List.foldl_cons, ih, List.flatMap_cons, appendNew_append]

theorem items_eq_filter_sortsTo {items : List TableItem} {t : Table} (ht : t ∈ partition items) :
    t.items = items.filter fun i => i.properties.SortsTo t.keys := by
  rw [items_of_mem_partition ht]
  simp only [TableItem.sortedKeys_eq_iff]

theorem holdsByKeys_partition {columns : List String} (hcolumns : columns ≠ [])
    {items : List TableItem} (hitems : ∀ i ∈ items, i.cells.length = columns.length) :
    Csv.HoldsByKeys ((partition items).map (written · columns)) columns items := by
  constructor
  · intro w hw
    obtain ⟨t, ht, rfl⟩ := List.mem_map.1 hw
    have hholds := holds_text hcolumns fun i hi => hitems i (mem_of_mem_partition ht hi)
    rwa [items_eq_filter_sortsTo ht] at hholds
  · intro i hi
    obtain ⟨t, ⟨ht, hkeys⟩, -⟩ := existsUnique_mem_partition hi
    exact ⟨t.written columns, List.mem_map_of_mem ht, TableItem.sortedKeys_eq_iff.1 hkeys.symm⟩

end Table

namespace Graph

/-- A name with a comma, a label with quotes and a value with a line break. -/
example : ((addNode .empty (.text "a,b") ["so \"said\""]
    (.set .empty "note" (.text "one\ntwo"))).writeTables?).map (fun texts => Csv.rows texts.1) =
      some [[":ID", ":LABEL", "note"], ["a,b", "so \"said\"", "one\ntwo"]] := by
  decide +kernel

end Graph

end PropertyGraph

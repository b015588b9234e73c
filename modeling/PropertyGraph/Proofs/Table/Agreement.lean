/-
The tables for each set of keys beside the one table of all.

Both exports go through the same nodes and edges, but find their columns on ways of
their own: one collects all keys as they come, the other puts those together that
have the same keys.  Nothing is lost between them.  Every node or edge has its row
in exactly one table of the partition, and that row is its row of the whole table
without the columns of keys that it lacks, in which there is nothing.

* **`Csv.Sheet.under?_eq_some_iff`** — the cell of a row under a key;
* **`Table.agree_row`** — the two rows of one item;
* **`Table.sharesOut_partition`** — items shared out among tables;
* **`Graph.partition_agrees`** — the two exports of a graph.
-/
import PropertyGraph.Proofs.Table.Writing

namespace PropertyGraph

/-! ### Cells by key -/

namespace Csv

/-- A table as it is read: its heading, and the rows below. -/
structure Sheet where
  heading : List String
  rows : List (List String)

/-- The table that a text holds. -/
def sheet (text : String) : Sheet where
  heading := (rows text).headD []
  rows := (rows text).tail

/-- What stands in a row under a key, where the first columns are fixed ones and not
those of keys. -/
def Sheet.under? (s : Sheet) (fixed : Nat) (row : List String) (key : String) : Option String :=
  (((s.heading.zip row).drop fixed).find? fun c => c.1 = key).map Prod.snd

theorem Sheet.under?_eq_some_iff {s : Sheet} {columns keys cells : List String}
    {f : String → String} {key value : String} (hheading : s.heading = columns ++ keys)
    (hkeys : keys.Nodup) (hcells : cells.length = columns.length) :
    s.under? columns.length (cells ++ keys.map f) key = some value ↔ key ∈ keys ∧ f key = value := by
  -- Behind the fixed columns every key stands beside its cell.
  have hpairs : (s.heading.zip (cells ++ keys.map f)).drop columns.length =
      keys.map fun k => (k, f k) := by
    have hfixed : (columns.zip cells).length = columns.length := by
      rw [List.length_zip, hcells, Nat.min_self]
    rw [hheading, List.zip_append hcells.symm, ← hfixed, List.drop_left, List.map_prod_left_eq_zip]
  have hnodup : ((keys.map fun k => (k, f k)).map Prod.fst).Nodup := by
    rw [List.map_map]
    exact (List.map_id keys).symm ▸ hkeys
  rw [under?, hpairs, OrderedMap.find?_fst_eq_some_iff hnodup, List.mem_map]
  constructor
  · rintro ⟨k, hk, hpair⟩
    cases hpair
    exact ⟨hk, rfl⟩
  · rintro ⟨hk, rfl⟩
    exact ⟨key, hk, rfl⟩

end Csv

/-- The row of an item in a table of its own keys, and its row in a table with more:
the fixed cells are those of the item in both, under each key of the item stands the
same, and under all other keys nothing. -/
structure Csv.Agree (fixed : Nat) (i : TableItem) (narrow wide : Sheet)
    (row wideRow : List String) : Prop where
  cells : row.take fixed = i.cells ∧ wideRow.take fixed = i.cells
  shared : ∀ key ∈ i.properties.keys, ∃ value,
    narrow.under? fixed row key = some value ∧ wide.under? fixed wideRow key = some value
  blank : ∀ key ∈ wide.heading.drop fixed, key ∉ i.properties.keys →
    wide.under? fixed wideRow key = some ""

/-! ### Items shared out among tables -/

section

variable {α : Type}

/-- The entries that have their rows in a table, in their order. -/
def WrittenTable.members (t : WrittenTable) (item : α → TableItem) (entries : List α) : List α :=
  entries.filter fun e => (item e).properties.SortsTo t.keys

/-- Entries are shared out among tables, each into exactly one, the table of its keys
in ascending order.  The tables have different keys and come in the order of their
first entries.  A table has a row for each of its entries, in their order, and counts
them; each row agrees with the row of its entry in the table of all entries. -/
structure WrittenTable.SharesOut (columns : List String) (item : α → TableItem)
    (entries : List α) (whole : String) (tables : List WrittenTable) : Prop where
  exactly_one : ∀ e ∈ entries, ∃! t, t ∈ tables ∧ (item e).properties.SortsTo t.keys
  keys_nodup : (tables.map keys).Nodup
  first_come : tables.Pairwise fun t t' =>
    entries.findIdx (fun e => (item e).properties.SortsTo t.keys) <
      entries.findIdx fun e => (item e).properties.SortsTo t'.keys
  rows_eq : ∀ t ∈ tables, t.rows = (t.members item entries).length ∧ 0 < t.rows
  sum_rows : (tables.map rows).sum = entries.length
  sheet_eq : ∀ t ∈ tables, (Csv.sheet t.text).heading = columns ++ t.keys ∧
    (Csv.sheet t.text).rows.length = t.rows
  length_whole : (Csv.sheet whole).rows.length = entries.length
  agree : ∀ t ∈ tables, ∀ e row wideRow,
    (e, row) ∈ (t.members item entries).zip (Csv.sheet t.text).rows →
    (e, wideRow) ∈ entries.zip (Csv.sheet whole).rows →
    Csv.Agree columns.length (item e) (Csv.sheet t.text) (Csv.sheet whole) row wideRow

end

namespace Table

variable {α : Type} {columns : List String} {item : α → TableItem} {entries : List α}

theorem sheet_text {t : Table} (hcolumns : columns ≠ [])
    (hitems : ∀ i ∈ t.items, i.cells.length = columns.length) :
    Csv.sheet (t.text columns) =
      { heading := columns ++ t.keys, rows := t.items.map (TableItem.row · t.keys) } := by
  rw [Csv.sheet, (holds_text hcolumns hitems).rows_eq]
  rfl

theorem agree_row {i : TableItem} {narrow wide : Csv.Sheet} {keys wideKeys : List String}
    (hcells : i.cells.length = columns.length) (hnarrow : narrow.heading = columns ++ keys)
    (hwide : wide.heading = columns ++ wideKeys) (hkeys : keys.Perm i.properties.keys)
    (hnodup : wideKeys.Nodup) (hsubset : i.properties.keys ⊆ wideKeys) :
    Csv.Agree columns.length i narrow wide (i.row keys) (i.row wideKeys) where
  cells := by
    rw [← hcells]
    exact ⟨List.take_left, List.take_left⟩
  shared key hkey := by
    refine ⟨i.cell key, ?_, ?_⟩
    · exact (Csv.Sheet.under?_eq_some_iff hnarrow (hkeys.nodup_iff.2 i.properties.nodup) hcells).2
        ⟨hkeys.mem_iff.2 hkey, rfl⟩
    · exact (Csv.Sheet.under?_eq_some_iff hwide hnodup hcells).2 ⟨hsubset hkey, rfl⟩
  blank key hkey hlacks := by
    rw [hwide, List.drop_left] at hkey
    have hblank : i.cell key = "" := by
      rw [TableItem.cell, OrderedMap.get?_eq_none_iff.2 hlacks, Option.elim_none]
    exact (Csv.Sheet.under?_eq_some_iff hwide hnodup hcells).2 ⟨hkey, hblank⟩

theorem items_eq_map_members {t : Table} (ht : t ∈ partition (entries.map item)) :
    t.items = ((t.written columns).members item entries).map item := by
  rw [items_eq_filter_sortsTo ht, List.filter_map]
  rfl

/-- The first entry of a table is where its keys first come. -/
theorem pairwise_findIdx_partition (item : α → TableItem) (entries : List α) :
    (partition (entries.map item)).Pairwise fun t t' =>
      entries.findIdx (fun e => (item e).properties.SortsTo t.keys) <
        entries.findIdx fun e => (item e).properties.SortsTo t'.keys := by
  have horder := pairwise_appendNew ((entries.map item).map TableItem.sortedKeys)
  rw [← keys_partition, List.pairwise_map] at horder
  refine horder.imp fun {t t'} hlt => ?_
  have hfirst : ∀ keys : List String, entries.findIdx (fun e => (item e).properties.SortsTo keys) =
      ((entries.map item).map TableItem.sortedKeys).findIdx fun k => decide (k = keys) := by
    intro keys
    rw [List.map_map, List.findIdx_map]
    simp only [Function.comp_def, TableItem.sortedKeys_eq_iff]
  rw [hfirst, hfirst]
  exact hlt

section

variable (hcolumns : columns ≠ []) (hcells : ∀ e ∈ entries, (item e).cells.length = columns.length)

include hcolumns hcells

/-- The table of all entries as it is read. -/
theorem sheet_ofItems : Csv.sheet ((ofItems (entries.map item)).text columns) =
    { heading := columns ++ (ofItems (entries.map item)).keys
      rows := entries.map fun e => (item e).row (ofItems (entries.map item)).keys } := by
  have hsheet := sheet_text (t := ofItems (entries.map item)) hcolumns (List.forall_mem_map.2 hcells)
  rwa [ofItems, List.map_map] at hsheet

/-- A table of the partition as it is read. -/
theorem sheet_written {t : Table} (ht : t ∈ partition (entries.map item)) :
    Csv.sheet (t.written columns).text =
      { heading := columns ++ t.keys
        rows := ((t.written columns).members item entries).map fun e => (item e).row t.keys } := by
  have hitems : ∀ i ∈ entries.map item, i.cells.length = columns.length :=
    List.forall_mem_map.2 hcells
  have hsheet := sheet_text hcolumns fun i hi => hitems i (mem_of_mem_partition ht hi)
  rwa [items_eq_map_members ht, List.map_map] at hsheet

/-- An entry has its row in a table of the partition and its row in the table of all
entries, and the two agree. -/
theorem agree_written {t : Table} (ht : t ∈ partition (entries.map item)) {e : α}
    {row wideRow : List String}
    (hrow : (e, row) ∈
      ((t.written columns).members item entries).zip (Csv.sheet (t.written columns).text).rows)
    (hwideRow : (e, wideRow) ∈
      entries.zip (Csv.sheet ((ofItems (entries.map item)).text columns)).rows) :
    Csv.Agree columns.length (item e) (Csv.sheet (t.written columns).text)
      (Csv.sheet ((ofItems (entries.map item)).text columns)) row wideRow := by
  have hsheet := sheet_written hcolumns hcells ht
  have hwhole := sheet_ofItems hcolumns hcells
  rw [hsheet, ← List.map_prod_left_eq_zip, List.mem_map] at hrow
  rw [hwhole, ← List.map_prod_left_eq_zip, List.mem_map] at hwideRow
  -- Both rows are made of the entry, each with the columns of its table.
  obtain ⟨_, hmember, ⟨⟩⟩ := hrow
  obtain ⟨_, he, ⟨⟩⟩ := hwideRow
  obtain ⟨hkeys, -⟩ : (item e).properties.SortsTo t.keys :=
    of_decide_eq_true (List.mem_filter.1 hmember).2
  have hnodup : (ofItems (entries.map item)).keys.Nodup := by
    rw [keys_ofItems]
    exact nodup_appendNew List.nodup_nil
  have hsubset : (item e).properties.keys ⊆ (ofItems (entries.map item)).keys := by
    intro key hkey
    rw [keys_ofItems, mem_appendNew]
    exact .inr (List.mem_flatMap.2 ⟨item e, List.mem_map_of_mem he, hkey⟩)
  exact agree_row (hcells e he) (congrArg _ hsheet) (congrArg _ hwhole) hkeys hnodup hsubset

theorem sharesOut_partition :
    WrittenTable.SharesOut columns item entries ((ofItems (entries.map item)).text columns)
      ((partition (entries.map item)).map (written · columns)) := by
  have hrows : ∀ t ∈ partition (entries.map item),
      (t.written columns).rows = ((t.written columns).members item entries).length := by
    intro t ht
    show t.items.length = _
    rw [items_eq_map_members ht, List.length_map]
  constructor
  case exactly_one =>
    intro e he
    obtain ⟨t, ⟨ht, hkeys⟩, hunique⟩ := existsUnique_mem_partition (List.mem_map_of_mem he)
    refine ⟨t.written columns,
      ⟨List.mem_map_of_mem ht, TableItem.sortedKeys_eq_iff.1 hkeys.symm⟩, ?_⟩
    rintro w ⟨hw, hkeys'⟩
    obtain ⟨t', ht', rfl⟩ := List.mem_map.1 hw
    rw [hunique t' ⟨ht', (TableItem.sortedKeys_eq_iff.2 hkeys').symm⟩]
  case keys_nodup =>
    rw [List.map_map]
    show ((partition (entries.map item)).map keys).Nodup
    rw [keys_partition]
    exact nodup_appendNew List.nodup_nil
  case first_come => exact List.pairwise_map.2 (pairwise_findIdx_partition item entries)
  case rows_eq =>
    refine List.forall_mem_map.2 fun t ht => ⟨hrows t ht, ?_⟩
    -- The keys of a table are those of some entry.
    obtain ⟨i, hi, hkeys⟩ := exists_mem_of_mem_partition ht
    refine List.length_pos_of_mem (a := i) ?_
    rw [items_of_mem_partition ht]
    exact List.mem_filter.2 ⟨hi, decide_eq_true hkeys⟩
  case sum_rows =>
    rw [List.map_map, ← List.length_map item, ← sum_length_partition]
    rfl
  case sheet_eq =>
    refine List.forall_mem_map.2 fun t ht => ?_
    rw [sheet_written hcolumns hcells ht, hrows t ht, List.length_map]
    exact ⟨rfl, rfl⟩
  case length_whole => rw [sheet_ofItems hcolumns hcells, List.length_map]
  case agree =>
    exact List.forall_mem_map.2 fun t ht e row wideRow => agree_written hcolumns hcells ht

end

end Table

namespace Graph

/-- **The two exports of a graph agree**: its nodes are shared out among the tables of
the partition, and so are its edges, and none of their cells is another than in the
one table of all. -/
theorem partition_agrees (g : Graph) : ∃ nodeText edgeText nodeTables edgeTables,
    g.writeTables? = some (nodeText, edgeText) ∧
    g.writePartition? = some (nodeTables, edgeTables) ∧
    WrittenTable.SharesOut nodeHeading .ofNode g.nodes.values nodeText nodeTables ∧
    WrittenTable.SharesOut edgeHeading .ofEdge g.edges.values edgeText edgeTables ∧
    (nodeTables.map WrittenTable.rows).sum = g.nodeCount ∧
    (edgeTables.map WrittenTable.rows).sum = g.edgeCount := by
  have hnodes : WrittenTable.SharesOut nodeHeading .ofNode g.nodes.values
      (g.nodeTable.text nodeHeading) (g.nodePartition.map (Table.written · nodeHeading)) :=
    Table.sharesOut_partition (by decide) fun _ _ => rfl
  have hedges : WrittenTable.SharesOut edgeHeading .ofEdge g.edges.values
      (g.edgeTable.text edgeHeading) (g.edgePartition.map (Table.written · edgeHeading)) :=
    Table.sharesOut_partition (by decide) fun _ _ => rfl
  exact ⟨_, _, _, _, g.writeTables?_eq, g.writePartition?_eq, hnodes, hedges,
    hnodes.sum_rows.trans (OrderedMap.length_values _),
    hedges.sum_rows.trans (OrderedMap.length_values _)⟩

/-- Two nodes with the same keys, which came in another order, and one without. -/
example :
    let given (keys : List String) : Properties := .ofList (keys.map fun k => (k, .several []))
    let g := addNode (addNode (addNode .empty (.int 1) [] (given ["line", "lemma"])) (.int 2) []
      .empty) (.int 3) [] (given ["lemma", "line"])
    g.writePartition?.map (fun tables => tables.1.map fun t => (t.keys, t.rows)) =
      some [(["lemma", "line"], 2), ([], 1)] := by
  cbv

end Graph

end PropertyGraph

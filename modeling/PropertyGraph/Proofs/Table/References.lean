/-
Whether the tables of a graph refer to its nodes without doubt.

The table of the edges names their ends by the cells that name the nodes in the
table of the nodes.  Both give the plain text of a name, and an integer has the
same plain text as the text of its digits.  That is the only way in which two
nodes can be named alike, so the tables are in doubt exactly if the graph has
both.

* **`NodeId.display_eq_iff`** — which names have one plain text;
* **`nodup_idCells_iff`** — when every node has a cell of its own;
* **`referencesResolve_iff`** — when every end of every edge leads to its node
  and to no other, for every graph that updates build.
-/
import PropertyGraph.Proofs.Graph.Soundness
import PropertyGraph.Proofs.Text.Numeral
import PropertyGraph.Table.Basic

namespace PropertyGraph

/-- An integer and the text of its digits are the only names that are told apart
though their plain texts are not. -/
theorem NodeId.display_eq_iff {a b : NodeId} :
    a.display = b.display ↔ a = b ∨ ∃ n : Int64,
      (a = .int n ∧ b = .text (toString n.toInt)) ∨ (a = .text (toString n.toInt) ∧ b = .int n) := by
  constructor
  · intro h
    cases a with
    | int m =>
      cases b with
      | int n => exact .inl (congrArg int (Int64.toInt_inj.1 (Text.toString_int_inj.1 h)))
      | text t => exact .inr ⟨m, .inl ⟨rfl, congrArg text h.symm⟩⟩
    | text s =>
      cases b with
      | int n => exact .inr ⟨n, .inr ⟨congrArg text h, rfl⟩⟩
      | text t => exact .inl (congrArg text h)
  · rintro (rfl | ⟨n, ⟨rfl, rfl⟩ | ⟨rfl, rfl⟩⟩)
    · rfl
    · rfl
    · rfl

/-- The cells of a table under one of its fixed columns, row by row. -/
def Table.cellsUnder (t : Table) (columns : List String) (column : String) : List String :=
  (t.rows columns).tail.map fun row => row.getD (columns.idxOf column) ""

namespace Graph

variable {g : Graph}

/-- The cells that name the nodes in the table of the nodes. -/
def idCells (g : Graph) : List String := g.nodeTable.cellsUnder nodeHeading ":ID"

/-- The cells that name the starts in the table of the edges. -/
def startCells (g : Graph) : List String := g.edgeTable.cellsUnder edgeHeading ":START_ID"

/-- The cells that name the ends in the table of the edges. -/
def finishCells (g : Graph) : List String := g.edgeTable.cellsUnder edgeHeading ":END_ID"

/-- A cell leads to the row of a node and to no other row. -/
def LeadsTo (g : Graph) (cell : String) (id : NodeId) : Prop :=
  ∃ row : Nat, g.nodes.keys[row]? = some id ∧ ∀ other : Nat, g.idCells[other]? = some cell ↔ other = row

/-- Every node has a name of its own in the table of the nodes, and the names in
the row of an edge lead to the rows of its two ends. -/
def ReferencesResolve (g : Graph) : Prop :=
  g.idCells.Nodup ∧
  ∀ (row : Nat) (k : EdgeKey), g.edges.keys[row]? = some k → ∃ start finish,
    g.startCells[row]? = some start ∧ g.finishCells[row]? = some finish ∧
    g.LeadsTo start k.start ∧ g.LeadsTo finish k.finish

theorem idCells_eq (hg : g.Keyed) : g.idCells = g.nodes.keys.map NodeId.display := by
  simp only [← hg.keys_nodes, idCells, Table.cellsUnder, Table.rows, nodeTable, Table.ofItems,
    nodeItems, List.tail_cons, List.map_map]
  rfl

theorem startCells_eq (hg : g.Keyed) :
    g.startCells = g.edges.keys.map fun k => k.start.display := by
  simp only [← hg.keys_edges, startCells, Table.cellsUnder, Table.rows, edgeTable, Table.ofItems,
    edgeItems, List.tail_cons, List.map_map]
  rfl

theorem finishCells_eq (hg : g.Keyed) :
    g.finishCells = g.edges.keys.map fun k => k.finish.display := by
  simp only [← hg.keys_edges, finishCells, Table.cellsUnder, Table.rows, edgeTable, Table.ofItems,
    edgeItems, List.tail_cons, List.map_map]
  rfl

/-- Two nodes are named alike exactly if one is named by an integer and the other
by its digits. -/
theorem nodup_idCells_iff (hg : g.Keyed) :
    g.idCells.Nodup ↔
      ¬ ∃ n : Int64, g.hasNode (.int n) = true ∧ g.hasNode (.text (toString n.toInt)) = true := by
  simp only [hasNode, OrderedMap.contains_eq_true_iff]
  rw [idCells_eq hg]
  constructor
  · rintro hnodup ⟨n, hint, htext⟩
    have heq := List.inj_on_of_nodup_map hnodup hint htext rfl
    exact NodeId.noConfusion heq
  · intro hapart
    refine List.Nodup.map_on (fun a ha b hb heq => ?_) g.nodes.nodup
    rcases NodeId.display_eq_iff.1 heq with hab | ⟨n, ⟨rfl, rfl⟩ | ⟨rfl, rfl⟩⟩
    · exact hab
    · exact absurd ⟨n, ha, hb⟩ hapart
    · exact absurd ⟨n, hb, ha⟩ hapart

theorem leadsTo_display (hg : g.Keyed) (h : g.idCells.Nodup) {id : NodeId}
    (hid : g.hasNode id = true) : g.LeadsTo id.display id := by
  obtain ⟨row, hrow⟩ := List.mem_iff_getElem?.1 (OrderedMap.contains_eq_true_iff.1 hid)
  have hcell : g.idCells[row]? = some id.display := by
    rw [idCells_eq hg, List.getElem?_map, hrow, Option.map_some]
  refine ⟨row, hrow, fun other => ?_⟩
  constructor
  · intro hother
    have hlt : row < g.idCells.length := (List.getElem?_eq_some_iff.1 hcell).1
    exact ((List.getElem?_inj hlt h).1 (hcell.trans hother.symm)).symm
  · rintro rfl
    exact hcell

/-- **The tables refer to nodes without doubt** exactly if no integer names a node
whose digits name another. -/
theorem referencesResolve_iff (updates : List (EndpointStrategy × Update)) :
    let g := run updates
    g.ReferencesResolve ↔
      ¬ ∃ n : Int64, g.hasNode (.int n) = true ∧ g.hasNode (.text (toString n.toInt)) = true := by
  intro g
  have hg : g.Sound := run_sound updates
  have hkeyed : g.Keyed := run_keyed updates
  constructor
  · intro h
    exact (nodup_idCells_iff hkeyed).1 h.1
  · intro hapart
    have hnodup := (nodup_idCells_iff hkeyed).2 hapart
    refine ⟨hnodup, fun row k hk => ?_⟩
    -- Both ends of an edge are stored, whatever the updates were.
    have hstored : g.hasEdge k = true :=
      OrderedMap.contains_eq_true_iff.2 (List.mem_of_getElem? hk)
    refine ⟨k.start.display, k.finish.display, ?_, ?_,
      leadsTo_display hkeyed hnodup (hg.hasNode_start k hstored),
      leadsTo_display hkeyed hnodup (hg.hasNode_finish k hstored)⟩
    · rw [startCells_eq hkeyed, List.getElem?_map, hk, Option.map_some]
    · rw [finishCells_eq hkeyed, List.getElem?_map, hk, Option.map_some]

/-- A node that is named by an integer, and one that is named by its digit: both
rows of the table have one name. -/
theorem not_referencesResolve_digit :
    ¬ (run [(.default, .addNode (.int 1) [] .empty),
      (.default, .addNode (.text "1") [] .empty)]).ReferencesResolve := by
  rintro ⟨hnodup, -⟩
  revert hnodup
  decide

end Graph

end PropertyGraph

/-
Everything is stored under the name that it bears.

A graph finds its nodes and edges under names, and what is written of them names them
by the names that they bear themselves.  No update parts the two:

* **`Graph.Keyed`** — nodes and edges bear the names that they are stored under;
* **`Keyed.addNode`**, **`Keyed.addEdge`**, **`Keyed.removeEdge`** — each update keeps
  that;
* **`run_keyed`** — so does a whole run;
* **`Keyed.entries_nodes`**, **`Keyed.entries_edges`** — the nodes and edges alone tell
  the names.
-/
import PropertyGraph.Proofs.Graph.Counts
import PropertyGraph.Proofs.Graph.Runs

namespace PropertyGraph.Graph

variable {strategy : EndpointStrategy} {g : Graph}

/-- Nodes and edges bear the names that they are stored under. -/
structure Keyed (g : Graph) : Prop where
  node : ∀ id n, g.node? id = some n → n.id = id
  edge : ∀ k e, g.edge? k = some e → e.key = k

theorem keyed_empty : Keyed empty where
  node _ _ hn := by cases hn
  edge _ _ he := by cases he

theorem Keyed.addNode (hg : g.Keyed) (id : NodeId) (labels : List String)
    (properties : Properties) : (g.addNode id labels properties).Keyed where
  node := forall_node_addNode hg.node rfl fun _ hn => hn
  edge := hg.edge

theorem Keyed.addEndpoints (hg : g.Keyed) (k : EdgeKey) (properties : Properties) :
    (addEndpoints strategy g k properties).Keyed :=
  addEndpoints_induction (fun _ hh => hh.addNode _ _ _) (fun _ hh => hh.addNode _ _ _) hg

/-- Counting changes no name. -/
theorem Keyed.countEdge (hg : g.Keyed) (k : EdgeKey) : (g.countEdge k).Keyed where
  node id n hn := by
    rw [node?_countEdge, Option.map_eq_some_iff] at hn
    obtain ⟨old, hold, rfl⟩ := hn
    exact hg.node id old hold
  edge := hg.edge

theorem Keyed.uncountEdge (hg : g.Keyed) (k : EdgeKey) : (g.uncountEdge k).Keyed where
  node id n hn := by
    rw [node?_uncountEdge, Option.map_eq_some_iff] at hn
    obtain ⟨old, hold, rfl⟩ := hn
    exact hg.node id old hold
  edge := hg.edge

/-- What is submitted for an edge does not rename it. -/
theorem Keyed.key_submitted (hg : g.Keyed) (k : EdgeKey) (properties : Properties) :
    (g.submitted k properties).key = k := by
  rw [submitted]
  cases hk : g.edges.get? k with
  | none => rfl
  | some e => exact hg.edge k e hk

theorem Keyed.insertEdge (hg : g.Keyed) {k : EdgeKey} {e : Edge} (he : e.key = k) :
    Keyed { g with edges := g.edges.insert k e } where
  node := hg.node
  edge other e' he' := by
    rw [edge?, OrderedMap.get?_insert] at he'
    split at he'
    · next h =>
      subst h
      exact Option.some.inj he' ▸ he
    · exact hg.edge other e' he'

theorem Keyed.addEdge (hg : g.Keyed) (k : EdgeKey) (properties : Properties) :
    (g.addEdge strategy k properties).Keyed := by
  have hkey : (g.submitted k properties).key = k := hg.key_submitted k properties
  rw [addEdge_eq]
  by_cases hk : g.hasEdge k = true
  · rw [if_pos hk]
    exact (hg.insertEdge hkey).countEdge k
  · rw [if_neg hk, ← edges_addEndpoints g k properties]
    exact ((hg.addEndpoints k properties).insertEdge hkey).countEdge k

theorem Keyed.eraseEdge (hg : g.Keyed) (k : EdgeKey) :
    Keyed { g with edges := g.edges.erase k } where
  node := hg.node
  edge other e he := by
    rw [edge?, OrderedMap.get?_erase] at he
    split at he
    · cases he
    · exact hg.edge other e he

theorem Keyed.removeEdge (hg : g.Keyed) (k : EdgeKey) : (g.removeEdge k).Keyed := by
  rw [Graph.removeEdge]
  split
  · exact (hg.eraseEdge k).uncountEdge k
  · exact hg

theorem invariant_keyed (strategy : EndpointStrategy) :
    Invariant strategy (fun _ => True) Keyed where
  addNode hg id labels _ _ := hg.addNode id labels _
  addEdge hg k _ _ := hg.addEdge k _
  removeEdge hg k := hg.removeEdge k
  stored _ _ _ _ := trivial
  marked := trivial
  recorded _ := trivial

theorem run_keyed (updates : List (EndpointStrategy × Update)) : (run updates).Keyed :=
  run_induction keyed_empty fun u _ => ⟨invariant_keyed u.1, u.2.supplies_true⟩

/-! ### Names told by the nodes and edges -/

theorem Keyed.entries_nodes (hg : g.Keyed) :
    g.nodes.entries = g.nodes.values.map fun n => (n.id, n) := by
  rw [OrderedMap.values, List.map_map]
  refine ((List.map_congr_left fun e he => ?_).trans (List.map_id _)).symm
  exact Prod.ext (hg.node e.1 e.2 (OrderedMap.get?_eq_some_iff.2 he)) rfl

theorem Keyed.entries_edges (hg : g.Keyed) :
    g.edges.entries = g.edges.values.map fun e => (e.key, e) := by
  rw [OrderedMap.values, List.map_map]
  refine ((List.map_congr_left fun e he => ?_).trans (List.map_id _)).symm
  exact Prod.ext (hg.edge e.1 e.2 (OrderedMap.get?_eq_some_iff.2 he)) rfl

theorem Keyed.keys_nodes (hg : g.Keyed) : g.nodes.values.map Node.id = g.nodes.keys := by
  rw [OrderedMap.keys, hg.entries_nodes, List.map_map]
  rfl

theorem Keyed.keys_edges (hg : g.Keyed) : g.edges.values.map Edge.key = g.edges.keys := by
  rw [OrderedMap.keys, hg.entries_edges, List.map_map]
  rfl

theorem Keyed.contents_eq (hg : g.Keyed) :
    g.contents = g.nodes.values.map fun n => (n.id, n.labels, n.properties) := by
  rw [contents, hg.entries_nodes, List.map_map]
  rfl

end PropertyGraph.Graph

/-
Which nodes and edges a compiled query covers.

Compiling fails only for want of a node: of any node at all, or of an end of an
edge.  The nodes and edges of a property graph want for neither, as every edge
has both its ends, so only the empty graph has no query.  Listed once and without
repeated labels, each node is matched by what it holds.

* **`keys_constraints`** — the nodes that are matched, first listed first;
* **`exists_compile`** — enough nodes make a query;
* **`constraints_ofGraph`** — what the nodes of a graph are matched by;
* **`compileStored_run`** — the query for the graph of a run: a path for each
  edge, and then the nodes without edges.
-/
import PropertyGraph.Proofs.Cypher.Compiling
import PropertyGraph.Proofs.Graph.Soundness

namespace PropertyGraph.Cypher

variable {config : MatchConfig}

/-! ### The nodes that are matched -/

theorem keys_addListing (m : OrderedMap NodeId Constraint) (n : PatternNode) :
    (addListing config m n).keys = if n.id ∈ m.keys then m.keys else m.keys ++ [n.id] := by
  rw [addListing]
  split <;> exact OrderedMap.keys_insert _ _ _

/-- The matched nodes are the listed ones, first listed first. -/
theorem keys_constraints (config : MatchConfig) (nodes : List PatternNode) :
    (constraints config nodes).keys = appendNew [] (nodes.map PatternNode.id) := by
  suffices hfold : ∀ m : OrderedMap NodeId Constraint,
      (nodes.foldl (addListing config) m).keys = appendNew m.keys (nodes.map PatternNode.id) from
    hfold .empty
  induction nodes with
  | nil => exact fun m => rfl
  | cons n nodes ih =>
    intro m
    rw [List.foldl_cons, ih, keys_addListing, List.map_cons, appendNew_cons]

theorem mem_keys_constraints {nodes : List PatternNode} {id : NodeId} :
    id ∈ (constraints config nodes).keys ↔ id ∈ nodes.map PatternNode.id := by
  rw [keys_constraints, mem_appendNew, or_iff_right List.not_mem_nil]

theorem isEmpty_constraints (config : MatchConfig) (nodes : List PatternNode) :
    (constraints config nodes).isEmpty = nodes.isEmpty := by
  cases nodes with
  | nil => rfl
  | cons n nodes =>
    have hmem : n.id ∈ (constraints config (n :: nodes)).keys :=
      mem_keys_constraints.2 List.mem_cons_self
    have hne : (constraints config (n :: nodes)).entries ≠ [] := by
      intro hnil
      rw [OrderedMap.keys, hnil] at hmem
      exact List.not_mem_nil hmem
    rw [OrderedMap.isEmpty, List.isEmpty_eq_false_iff.2 hne, List.isEmpty_cons]

/-! ### Success -/

theorem compile_of_nil {p : PatternGraph} (h : p.nodes = []) :
    compile config p = .error .emptyPattern := by
  rw [compile, h]
  rfl

/-- Edges between matched nodes have their paths. -/
theorem exists_paths {patterns : OrderedMap NodeId NodePattern} {edges : List PatternEdge}
    (h : ∀ e ∈ edges, e.key.start ∈ patterns.keys ∧ e.key.finish ∈ patterns.keys) (number : Nat) :
    ∃ fragments, paths config patterns number edges = .ok fragments := by
  induction edges generalizing number with
  | nil => exact ⟨[], rfl⟩
  | cons e edges ih =>
    obtain ⟨⟨hs, hf⟩, hrest⟩ := List.forall_mem_cons.1 h
    obtain ⟨source, hsource⟩ := OrderedMap.exists_get?_iff.2 hs
    obtain ⟨target, htarget⟩ := OrderedMap.exists_get?_iff.2 hf
    obtain ⟨fragments, hfragments⟩ := ih hrest (number + 1)
    refine ⟨.path source (relationPattern config number e) target :: fragments, ?_⟩
    rw [paths, endPattern_eq_ok_iff.2 hsource, endPattern_eq_ok_iff.2 htarget, hfragments]
    rfl

/-- There is a query for a graph with nodes that lists both ends of every
edge. -/
theorem exists_compile {p : PatternGraph} (hnodes : p.nodes ≠ [])
    (hends : ∀ e ∈ p.edges, e.key.start ∈ p.nodes.map PatternNode.id ∧
      e.key.finish ∈ p.nodes.map PatternNode.id) :
    ∃ q, compile config p = .ok q := by
  have hkeys : (nodePatterns config (constraints config p.nodes)).keys =
      (constraints config p.nodes).keys := OrderedMap.keys_mapValues _ _
  obtain ⟨edges, hedges⟩ : ∃ edges,
      paths config (nodePatterns config (constraints config p.nodes)) 1 p.edges = .ok edges := by
    refine exists_paths (fun e he => ?_) 1
    rw [hkeys, mem_keys_constraints, mem_keys_constraints]
    exact hends e he
  have hsome : (constraints config p.nodes).isEmpty = false := by
    rw [isEmpty_constraints]
    exact List.isEmpty_eq_false_iff.2 hnodes
  exact ⟨_, compile_eq_ok_iff.2 ⟨hsome, edges, hedges, rfl⟩⟩

/-! ### Stored graphs -/

/-- Nodes that are listed once are matched by what their listings say. -/
theorem entries_constraints {nodes : List PatternNode}
    (h : (nodes.map PatternNode.id).Nodup) : (constraints config nodes).entries =
      nodes.map fun n => (n.id, ⟨n.distinctLabels, conditional config n.properties⟩) := by
  suffices hfold : ∀ m : OrderedMap NodeId Constraint,
      (m.keys ++ nodes.map PatternNode.id).Nodup →
        (nodes.foldl (addListing config) m).entries = m.entries ++
          nodes.map fun n => (n.id, ⟨n.distinctLabels, conditional config n.properties⟩) from
    hfold .empty h
  clear h
  induction nodes with
  | nil => exact fun m _ => (List.append_nil _).symm
  | cons n nodes ih =>
    intro m hm
    rw [List.map_cons, ← List.singleton_append, ← List.append_assoc] at hm
    have hnew : n.id ∉ m.keys := fun hn =>
      (List.nodup_append.1 (List.nodup_append.1 hm).1).2.2 n.id hn n.id List.mem_cons_self rfl
    have hadded : addListing config m n =
        m.insert n.id ⟨n.distinctLabels, conditional config n.properties⟩ := by
      rw [addListing, OrderedMap.get?_eq_none_iff.2 hnew]
    rw [List.foldl_cons, ih _ (by rwa [keys_addListing, if_neg hnew]), hadded,
      OrderedMap.entries_insert_of_notMem hnew, List.append_assoc]
    rfl

/-- The pattern graph lists what is stored under the names that it is stored under. -/
theorem ofGraph_eq {g : Graph} (hg : g.Keyed) : PatternGraph.ofGraph g =
    { nodes := g.nodes.entries.map fun e =>
        { id := e.1, labels := e.2.labels, properties := e.2.properties }
      edges := g.edges.entries.map fun e => ⟨e.1, e.2.properties⟩ } := by
  rw [PatternGraph.ofGraph, hg.entries_nodes, hg.entries_edges, List.map_map, List.map_map]
  rfl

theorem map_id_ofGraph {g : Graph} (hg : g.Keyed) :
    (PatternGraph.ofGraph g).nodes.map PatternNode.id = g.nodes.keys := by
  rw [ofGraph_eq hg, List.map_map]
  rfl

/-- The distinct labels of a stored node are its labels. -/
theorem constraints_ofGraph {g : Graph} (hg : g.Sound) (hkeyed : g.Keyed) (config : MatchConfig) :
    constraints config (PatternGraph.ofGraph g).nodes =
      g.nodes.mapValues fun _ n => ⟨n.labels, conditional config n.properties⟩ := by
  refine OrderedMap.ext ?_
  rw [entries_constraints (map_id_ofGraph hkeyed ▸ g.nodes.nodup), ofGraph_eq hkeyed, List.map_map]
  refine List.map_congr_left fun e he => ?_
  have hlabels : appendNew [] e.2.labels = e.2.labels :=
    appendNew_eq_append (hg.node e.1 e.2 (OrderedMap.get?_eq_some_iff.2 he)).labels_nodup
  simp only [Function.comp_apply, PatternNode.distinctLabels, Option.filter_none,
    Option.toList_none]
  rw [hlabels]
  rfl

/-- What a stored node is matched by: its own variable, its labels and those of
its properties that are conditions. -/
def storedPattern (config : MatchConfig) (g : Graph) (id : NodeId) (n : Node) : NodePattern :=
  nodePattern config (variableOf (assignVariables config g.nodes.keys) id)
    ⟨n.labels, conditional config n.properties⟩

/-- A fragment is the path of a stored edge under a number, between what its ends
are matched by. -/
def IsStoredPath (config : MatchConfig) (g : Graph) (e : (EdgeKey × Edge) × Nat)
    (f : Fragment) : Prop :=
  ∃ source target, g.node? e.1.1.start = some source ∧ g.node? e.1.1.finish = some target ∧
    f = .path (storedPattern config g e.1.1.start source)
      (relationPattern config e.2 ⟨e.1.1, e.1.2.properties⟩) (storedPattern config g e.1.1.finish target)

theorem nodePatterns_ofGraph {g : Graph} (hg : g.Sound) (hkeyed : g.Keyed)
    (config : MatchConfig) :
    nodePatterns config (constraints config (PatternGraph.ofGraph g).nodes) =
      g.nodes.mapValues (storedPattern config g) := by
  rw [constraints_ofGraph hg hkeyed, nodePatterns, OrderedMap.keys_mapValues]
  refine OrderedMap.ext ?_
  simp only [OrderedMap.mapValues, List.map_map]
  rfl

/-- The paths of stored edges run between what their ends are matched by. -/
theorem forall₂_isStoredPath {g : Graph} (hg : g.Sound) (hkeyed : g.Keyed)
    {fragments : List Fragment} (h : paths config (nodePatterns config (constraints config (PatternGraph.ofGraph g).nodes)) 1
      (PatternGraph.ofGraph g).edges = .ok fragments) :
    List.Forall₂ (IsStoredPath config g) (g.edges.entries.zipIdx 1) fragments := by
  rw [paths_eq_ok_iff, nodePatterns_ofGraph hg hkeyed, ofGraph_eq hkeyed, List.zipIdx_map,
    List.forall₂_map_left_iff] at h
  refine h.imp fun e f hf => ?_
  obtain ⟨source, target, hsource, htarget, rfl⟩ := hf
  rw [OrderedMap.get?_mapValues, Option.map_eq_some_iff] at hsource htarget
  obtain ⟨s, hs, rfl⟩ := hsource
  obtain ⟨t, ht, rfl⟩ := htarget
  exact ⟨s, t, hs, ht, rfl⟩

theorem loneNodes_ofGraph {g : Graph} (hg : g.Sound) (hkeyed : g.Keyed) :
    loneNodes (nodePatterns config (constraints config (PatternGraph.ofGraph g).nodes))
        (PatternGraph.ofGraph g).edges =
      (g.nodes.entries.filter fun e => !g.edges.keys.any fun k => k.touches e.1).map fun e =>
        .node (storedPattern config g e.1 e.2) := by
  rw [nodePatterns_ofGraph hg hkeyed, loneNodes, ofGraph_eq hkeyed, OrderedMap.mapValues,
    List.filter_map, List.map_map]
  simp only [OrderedMap.keys, List.any_map]
  rfl

/-- The ends of every stored edge are listed with the nodes. -/
theorem ends_listed_ofGraph {g : Graph} (hg : g.Sound) (hkeyed : g.Keyed) :
    ∀ e ∈ (PatternGraph.ofGraph g).edges,
      e.key.start ∈ (PatternGraph.ofGraph g).nodes.map PatternNode.id ∧
        e.key.finish ∈ (PatternGraph.ofGraph g).nodes.map PatternNode.id := by
  intro e he
  rw [ofGraph_eq hkeyed] at he
  obtain ⟨entry, hentry, rfl⟩ := List.mem_map.1 he
  have hstored : g.hasEdge entry.1 = true :=
    Graph.hasEdge_iff.2 ⟨entry.2, OrderedMap.get?_eq_some_iff.2 hentry⟩
  rw [map_id_ofGraph hkeyed, ← OrderedMap.contains_eq_true_iff, ← OrderedMap.contains_eq_true_iff]
  exact ⟨hg.hasNode_start _ hstored, hg.hasNode_finish _ hstored⟩

/-- **The graph of a run has a query unless it is empty.**  Compiling finds both
ends of every edge, and fails only where there is no node.  The query has a path
for each stored edge, in order, between what its ends are matched by; then comes
every node that no stored edge touches, in order. -/
theorem compileStored_run (config : MatchConfig) (updates : List (EndpointStrategy × Update)) :
    let g := Graph.run updates
    (∀ edge missing, compileStored config g ≠ .error (.danglingEdge edge missing)) ∧
    (compileStored config g = .error .emptyPattern ↔ g.nodeCount = 0) ∧
    (g.nodeCount ≠ 0 → ∃ q edges, compileStored config g = .ok q ∧
      edges.length = g.edgeCount ∧
      List.Forall₂ (IsStoredPath config g) (g.edges.entries.zipIdx 1) edges ∧
      q.fragments = edges ++
        (g.nodes.entries.filter fun e => !g.edges.keys.any fun k => k.touches e.1).map fun e =>
          .node (storedPattern config g e.1 e.2)) := by
  intro g
  have hg : g.Sound := Graph.run_sound updates
  have hkeyed : g.Keyed := Graph.run_keyed updates
  have hempty : g.nodeCount = 0 → compileStored config g = .error .emptyPattern := by
    intro hcount
    have hnil : g.nodes.entries = [] := List.length_eq_zero_iff.1 hcount
    exact compile_of_nil (by rw [ofGraph_eq hkeyed, hnil, List.map_nil])
  have hsome : g.nodeCount ≠ 0 → ∃ q, compileStored config g = .ok q := by
    intro hcount
    refine exists_compile (fun hnil => hcount ?_) (ends_listed_ofGraph hg hkeyed)
    rw [ofGraph_eq hkeyed, List.map_eq_nil_iff] at hnil
    exact List.length_eq_zero_iff.2 hnil
  refine ⟨fun edge missing h => ?_, ⟨fun h => ?_, hempty⟩, fun hcount => ?_⟩
  · -- There is a query, or there is no node.
    by_cases hcount : g.nodeCount = 0
    · rw [hempty hcount] at h
      cases h
    · obtain ⟨q, hq⟩ := hsome hcount
      rw [hq] at h
      cases h
  · by_contra hcount
    obtain ⟨q, hq⟩ := hsome hcount
    rw [hq] at h
    cases h
  · obtain ⟨q, hq⟩ := hsome hcount
    obtain ⟨-, edges, hedges, hfragments⟩ := compile_eq_ok_iff.1 hq
    have hpaths := forall₂_isStoredPath hg hkeyed hedges
    have hlength : edges.length = g.edgeCount := by
      rw [← hpaths.length_eq, List.length_zipIdx]
      rfl
    refine ⟨q, edges, hq, hlength, hpaths, ?_⟩
    rw [hfragments, loneNodes_ofGraph hg hkeyed]

end PropertyGraph.Cypher

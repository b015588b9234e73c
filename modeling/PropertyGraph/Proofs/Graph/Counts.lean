/-
How often edges are counted, and how every update changes the counts.

A node counts its edges twice, by neighbour: what goes out and what comes in.
`Graph.outCount g a b` reads the count of edges from `a` to `b` at `a`, and
`Graph.inCount g b a` reads it at `b`.

* **`node?_addNode`**, **`node?_countEdge`**, **`node?_uncountEdge`** — the node
  that is stored under a name after each update;
* **`forall_node_addNode`**, **`addEndpoints_induction`** — what holds of all nodes,
  or of the graph, after nodes are added or made up;
* **`outCount_countEdge`**, **`outCount_uncountEdge`** and their likes for
  `inCount` — an edge is counted once more, or once less, at both its ends and
  nowhere else;
* **`contents_countEdge`**, **`contents_uncountEdge`** — counting leaves labels
  and properties alone;
* **`get?_edges_addEdge`**, **`get?_edges_removeEdge`** — the edges after each
  update.
-/
import Mathlib.Data.List.Basic
import PropertyGraph.Graph.Basic

namespace PropertyGraph

namespace Counter

/-- Every neighbour that has an entry is counted. -/
def Positive (c : Counter) : Prop := ∀ id ∈ c.keys, 0 < c.count id

theorem positive_empty : Positive .empty := fun id hid => by
  simp [OrderedMap.keys, OrderedMap.empty] at hid

theorem mem_keys_of_count_pos {c : Counter} {id : NodeId} (h : 0 < c.count id) : id ∈ c.keys := by
  by_contra hid
  rw [count, OrderedMap.get?_eq_none_iff.2 hid] at h
  exact absurd h (by simp)

theorem count_of_mem {c : Counter} {e : NodeId × Nat} (h : e ∈ c.entries) : c.count e.1 = e.2 := by
  rw [count, OrderedMap.get?_eq_some_iff.2 h, Option.getD_some]

theorem Positive.mem_keys_iff {c : Counter} (hc : c.Positive) {id : NodeId} :
    id ∈ c.keys ↔ 0 < c.count id :=
  ⟨hc id, mem_keys_of_count_pos⟩

theorem Positive.increment {c : Counter} (hc : c.Positive) (id : NodeId) :
    (c.increment id).Positive := by
  intro other hother
  rw [count_increment]
  by_cases h : other = id
  · simp [h]
  · have hmem : other ∈ c.keys := by
      rw [Counter.increment, OrderedMap.keys_insert] at hother
      split at hother
      · exact hother
      · simpa [h] using hother
    have := hc other hmem
    omega

theorem Positive.decrement {c : Counter} (hc : c.Positive) (id : NodeId) :
    (c.decrement id).Positive := by
  intro other hother
  rw [count_decrement]
  by_cases h : other = id
  · -- The neighbour itself has an entry only while its count stays above zero.
    subst h
    rw [Counter.decrement] at hother
    split at hother
    · simp [OrderedMap.keys_erase] at hother
    · simp
      omega
  · have hmem : other ∈ c.keys := by
      rw [Counter.decrement] at hother
      split at hother
      · rw [OrderedMap.keys_erase] at hother
        exact (List.mem_filter.1 hother).1
      · rw [OrderedMap.keys_insert] at hother
        split at hother
        · exact hother
        · simpa [h] using hother
    simpa [h] using hc other hmem

end Counter

namespace Graph

variable {strategy : EndpointStrategy} {g : Graph}

/-- How often edges from `a` to `b` are counted at `a`. -/
def outCount (g : Graph) (a b : NodeId) : Nat :=
  ((g.node? a).map fun n => n.outgoing.count b).getD 0

/-- How often edges from `a` to `b` are counted at `b`. -/
def inCount (g : Graph) (b a : NodeId) : Nat :=
  ((g.node? b).map fun n => n.incoming.count a).getD 0

theorem hasNode_iff {id : NodeId} : g.hasNode id = true ↔ ∃ n, g.node? id = some n := by
  rw [hasNode, ← OrderedMap.get?_isSome, Option.isSome_iff_exists, node?]

theorem hasEdge_iff {k : EdgeKey} : g.hasEdge k = true ↔ ∃ p, g.edges.get? k = some p := by
  rw [hasEdge, ← OrderedMap.get?_isSome, Option.isSome_iff_exists]

theorem hasEdge_congr {g' : Graph} {k : EdgeKey} (h : g'.edges.get? k = g.edges.get? k) :
    g'.hasEdge k = g.hasEdge k := by
  rw [hasEdge, hasEdge, ← OrderedMap.get?_isSome, ← OrderedMap.get?_isSome, h]

theorem hasEdge_eq_false_iff {k : EdgeKey} : g.hasEdge k = false ↔ g.edges.get? k = none := by
  rw [hasEdge, ← OrderedMap.get?_isSome, Option.isSome_eq_false_iff, Option.isNone_iff_eq_none]

theorem hasNode_eq_false_iff {id : NodeId} : g.hasNode id = false ↔ g.nodes.get? id = none := by
  rw [hasNode, ← OrderedMap.get?_isSome, Option.isSome_eq_false_iff, Option.isNone_iff_eq_none]

theorem hasNode_of_outCount_pos {a b : NodeId} (h : 0 < g.outCount a b) : g.hasNode a = true := by
  rw [hasNode_iff]
  cases hn : g.node? a with
  | none => simp [outCount, hn] at h
  | some n => exact ⟨n, rfl⟩

theorem hasNode_of_inCount_pos {a b : NodeId} (h : 0 < g.inCount a b) : g.hasNode a = true := by
  rw [hasNode_iff]
  cases hn : g.node? a with
  | none => simp [inCount, hn] at h
  | some n => exact ⟨n, rfl⟩

/-! ### Nodes -/

theorem node?_addNode (g : Graph) (id other : NodeId) (labels : List String)
    (properties : Properties) :
    (g.addNode id labels properties).node? other =
      if other = id then
        some (((g.node? id).map (·.update labels properties)).getD (.create id labels properties))
      else g.node? other := by
  simp only [addNode, node?]
  split <;> next hn => rw [OrderedMap.get?_insert, hn]; rfl

/-- What a new node meets and updating keeps, all nodes meet after one is added. -/
theorem forall_node_addNode {P : NodeId → Node → Prop} {id : NodeId} {labels : List String}
    {properties : Properties} (h : ∀ other n, g.node? other = some n → P other n)
    (hnew : P id (.create id labels properties))
    (hupdate : ∀ n, P id n → P id (n.update labels properties)) :
    ∀ other n, (g.addNode id labels properties).node? other = some n → P other n := by
  intro other n hn
  rw [node?_addNode] at hn
  split at hn
  · next heq =>
    subst heq
    cases hstored : g.node? other with
    | none =>
      rw [hstored, Option.some.injEq] at hn
      exact hn ▸ hnew
    | some old =>
      rw [hstored, Option.some.injEq] at hn
      exact hn ▸ hupdate old (h other old hstored)
  · exact h other n hn

theorem hasNode_addNode {id other : NodeId} {labels : List String} {properties : Properties} :
    (g.addNode id labels properties).hasNode other = true ↔
      other = id ∨ g.hasNode other = true := by
  simp only [hasNode, addNode]
  split <;> exact OrderedMap.contains_insert

/-- A new node counts nothing, and an update keeps what is counted. -/
theorem outCount_addNode (g : Graph) (id : NodeId) (labels : List String)
    (properties : Properties) (a b : NodeId) :
    (g.addNode id labels properties).outCount a b = g.outCount a b := by
  rw [outCount, node?_addNode, outCount]
  by_cases h : a = id
  · -- Neither a missing node nor a new one counts anything.
    subst h
    cases g.node? a <;> simp [Node.create, Node.update, Counter.count]
  · rw [if_neg h]

theorem inCount_addNode (g : Graph) (id : NodeId) (labels : List String)
    (properties : Properties) (a b : NodeId) :
    (g.addNode id labels properties).inCount a b = g.inCount a b := by
  rw [inCount, node?_addNode, inCount]
  by_cases h : a = id
  · subst h
    cases g.node? a <;> simp [Node.create, Node.update, Counter.count]
  · rw [if_neg h]

theorem node?_countEdge (g : Graph) (k : EdgeKey) (id : NodeId) :
    (g.countEdge k).node? id = (g.node? id).map fun n =>
      { n with
        outgoing := if id = k.start then n.outgoing.increment k.finish else n.outgoing
        incoming := if id = k.finish then n.incoming.increment k.start else n.incoming } := by
  simp only [countEdge, node?, OrderedMap.get?_modify]
  by_cases hs : id = k.start <;> by_cases hf : id = k.finish <;>
    cases g.nodes.get? id <;> simp_all [Node.countOut, Node.countIn]

theorem node?_uncountEdge (g : Graph) (k : EdgeKey) (id : NodeId) :
    (g.uncountEdge k).node? id = (g.node? id).map fun n =>
      { n with
        outgoing := if id = k.start then n.outgoing.decrement k.finish else n.outgoing
        incoming := if id = k.finish then n.incoming.decrement k.start else n.incoming } := by
  simp only [uncountEdge, node?, OrderedMap.get?_modify]
  by_cases hs : id = k.start <;> by_cases hf : id = k.finish <;>
    cases g.nodes.get? id <;> simp_all [Node.uncountOut, Node.uncountIn]

/-- The nodes in order with all that they hold but their counts. -/
def contents (g : Graph) : List (NodeId × List String × Properties) :=
  g.nodes.entries.map fun e => (e.1, e.2.labels, e.2.properties)

theorem map_fst_contents (g : Graph) : g.contents.map Prod.fst = g.nodes.keys := by
  simp only [contents, OrderedMap.keys, List.map_map, Function.comp_def]

theorem hasNode_of_contents_eq {g' : Graph} (h : g'.contents = g.contents) (id : NodeId) :
    g'.hasNode id = g.hasNode id := by
  rw [Bool.eq_iff_iff, hasNode, hasNode, OrderedMap.contains_eq_true_iff,
    OrderedMap.contains_eq_true_iff, ← map_fst_contents, ← map_fst_contents, h]

theorem nodeCount_of_contents_eq {g' : Graph} (h : g'.contents = g.contents) :
    g'.nodeCount = g.nodeCount := by
  have hlength := congrArg List.length h
  rwa [contents, contents, List.length_map, List.length_map] at hlength

/-- A node that was missing comes last, its labels each once. -/
theorem contents_addNode_of_missing {id : NodeId} (hid : g.hasNode id = false)
    (labels : List String) (properties : Properties) :
    (g.addNode id labels properties).contents =
      g.contents ++ [(id, appendNew [] labels, properties)] := by
  have hnone : g.nodes.get? id = none := hasNode_eq_false_iff.1 hid
  rw [addNode, hnone, contents,
    OrderedMap.entries_insert_of_notMem (OrderedMap.get?_eq_none_iff.1 hnone), List.map_append,
    List.map_singleton]
  rfl

/-- A change to the counts of a node leaves the contents as they are. -/
theorem contents_modify {f : Node → Node}
    (hf : ∀ n, (f n).labels = n.labels ∧ (f n).properties = n.properties) (g : Graph)
    (id : NodeId) : contents { g with nodes := g.nodes.modify id f } = g.contents := by
  -- Entry by entry: names stay, and so does what `f` keeps.
  simp only [contents, OrderedMap.modify, OrderedMap.mapValues, List.map_map]
  refine List.map_congr_left fun e _ => ?_
  by_cases h : e.1 = id <;> simp [h, hf]

@[simp]
theorem contents_countEdge (g : Graph) (k : EdgeKey) : (g.countEdge k).contents = g.contents := by
  have hout := contents_modify (f := (Node.countOut · k.finish)) (fun _ => ⟨rfl, rfl⟩) g k.start
  have hin := contents_modify (f := (Node.countIn · k.start)) (fun _ => ⟨rfl, rfl⟩)
    { g with nodes := g.nodes.modify k.start (Node.countOut · k.finish) } k.finish
  exact hin.trans hout

@[simp]
theorem contents_uncountEdge (g : Graph) (k : EdgeKey) :
    (g.uncountEdge k).contents = g.contents := by
  have hout := contents_modify (f := (Node.uncountOut · k.finish)) (fun _ => ⟨rfl, rfl⟩) g k.start
  have hin := contents_modify (f := (Node.uncountIn · k.start)) (fun _ => ⟨rfl, rfl⟩)
    { g with nodes := g.nodes.modify k.start (Node.uncountOut · k.finish) } k.finish
  exact hin.trans hout

/-! ### Counts -/

theorem outCount_countEdge (g : Graph) (k : EdgeKey) (hs : g.hasNode k.start = true)
    (a b : NodeId) :
    (g.countEdge k).outCount a b =
      g.outCount a b + if a = k.start ∧ b = k.finish then 1 else 0 := by
  rw [outCount, node?_countEdge, outCount]
  obtain ⟨n, hn⟩ := hasNode_iff.1 hs
  by_cases ha : a = k.start
  · simp [ha, hn, Counter.count_increment]
  · simp [ha, Option.map_map, Function.comp_def]

theorem inCount_countEdge (g : Graph) (k : EdgeKey) (hf : g.hasNode k.finish = true)
    (a b : NodeId) :
    (g.countEdge k).inCount b a =
      g.inCount b a + if a = k.start ∧ b = k.finish then 1 else 0 := by
  rw [inCount, node?_countEdge, inCount]
  obtain ⟨n, hn⟩ := hasNode_iff.1 hf
  by_cases hb : b = k.finish
  · simp [hb, hn, Counter.count_increment]
  · simp [hb, Option.map_map, Function.comp_def]

/-- An end that is missing counts nothing, so this holds of any edge. -/
theorem outCount_countEdge_le (g : Graph) (k : EdgeKey) (a b : NodeId) :
    (g.countEdge k).outCount a b ≤ g.outCount a b + 1 := by
  rw [outCount, node?_countEdge, outCount]
  cases g.node? a with
  | none => exact Nat.zero_le _
  | some n =>
    simp only [Option.map_some, Option.getD_some]
    split
    · rw [Counter.count_increment]
      split <;> omega
    · exact Nat.le_succ _

theorem inCount_countEdge_le (g : Graph) (k : EdgeKey) (b a : NodeId) :
    (g.countEdge k).inCount b a ≤ g.inCount b a + 1 := by
  rw [inCount, node?_countEdge, inCount]
  cases g.node? b with
  | none => exact Nat.zero_le _
  | some n =>
    simp only [Option.map_some, Option.getD_some]
    split
    · rw [Counter.count_increment]
      split <;> omega
    · exact Nat.le_succ _

theorem outCount_uncountEdge (g : Graph) (k : EdgeKey) (a b : NodeId) :
    (g.uncountEdge k).outCount a b =
      g.outCount a b - if a = k.start ∧ b = k.finish then 1 else 0 := by
  rw [outCount, node?_uncountEdge, outCount]
  by_cases ha : a = k.start
  · subst ha
    cases g.node? k.start <;> simp [Counter.count_decrement]
  · simp [ha, Option.map_map, Function.comp_def]

theorem inCount_uncountEdge (g : Graph) (k : EdgeKey) (a b : NodeId) :
    (g.uncountEdge k).inCount b a =
      g.inCount b a - if a = k.start ∧ b = k.finish then 1 else 0 := by
  rw [inCount, node?_uncountEdge, inCount]
  by_cases hb : b = k.finish
  · subst hb
    cases g.node? k.finish <;> simp [Counter.count_decrement]
  · simp [hb, Option.map_map, Function.comp_def]

/-! ### Edges -/

@[simp]
theorem edges_countEdge (g : Graph) (k : EdgeKey) : (g.countEdge k).edges = g.edges := rfl

/-- What adding either end keeps, making up the ends keeps. -/
theorem addEndpoints_induction {P : Graph → Prop} {k : EdgeKey} {properties : Properties}
    (hstart : ∀ h, P h → P (addNode h k.start (strategy k properties).startLabels
      (strategy k properties).startProperties))
    (hfinish : ∀ h, P h → P (addNode h k.finish (strategy k properties).finishLabels
      (strategy k properties).finishProperties))
    (hg : P g) : P (addEndpoints strategy g k properties) := by
  simp only [addEndpoints]
  split
  · split
    · exact hg
    · exact hfinish g hg
  · split
    · exact hstart g hg
    · exact hfinish _ (hstart g hg)

@[simp]
theorem edges_addEndpoints (g : Graph) (k : EdgeKey) (properties : Properties) :
    (addEndpoints strategy g k properties).edges = g.edges := by
  simp only [addEndpoints]
  split <;> split <;> rfl

/-- What has been made up counts nothing yet. -/
theorem outCount_addEndpoints (strategy : EndpointStrategy) (g : Graph) (k : EdgeKey)
    (properties : Properties) (a b : NodeId) :
    (addEndpoints strategy g k properties).outCount a b = g.outCount a b := by
  simp only [addEndpoints]
  split <;> split <;> simp only [outCount_addNode]

theorem inCount_addEndpoints (strategy : EndpointStrategy) (g : Graph) (k : EdgeKey)
    (properties : Properties) (a b : NodeId) :
    (addEndpoints strategy g k properties).inCount a b = g.inCount a b := by
  simp only [addEndpoints]
  split <;> split <;> simp only [inCount_addNode]

/-- An edge between stored nodes makes up nothing. -/
theorem addEndpoints_of_stored {k : EdgeKey} (hs : g.hasNode k.start = true)
    (hf : g.hasNode k.finish = true) (properties : Properties) :
    addEndpoints strategy g k properties = g := by
  simp only [addEndpoints, hs, hf, if_true]

/-- The edge of a name after properties have been submitted for it. -/
def submitted (g : Graph) (k : EdgeKey) (properties : Properties) : Edge :=
  ((g.edges.get? k).map (·.update properties)).getD ⟨k, properties⟩

/-- Adding an edge stores what has been submitted for it, and counts it. -/
theorem addEdge_eq (g : Graph) (k : EdgeKey) (properties : Properties) :
    g.addEdge strategy k properties =
      countEdge
        { (if g.hasEdge k then g else addEndpoints strategy g k properties) with
          edges := g.edges.insert k (g.submitted k properties) } k := by
  rw [addEdge, submitted]
  split
  · next old hk => rw [if_pos (hasEdge_iff.2 ⟨old, hk⟩), hk]; rfl
  · next hk =>
    rw [if_neg (by simp [hasEdge_eq_false_iff.2 hk]), hk]
    simp only [edges_addEndpoints, Option.map_none, Option.getD_none]

theorem get?_edges_addEdge (g : Graph) (k other : EdgeKey) (properties : Properties) :
    (g.addEdge strategy k properties).edges.get? other =
      if other = k then some (g.submitted k properties) else g.edges.get? other := by
  rw [addEdge_eq, edges_countEdge, OrderedMap.get?_insert]

theorem hasEdge_addEdge_self (g : Graph) (strategy : EndpointStrategy) (k : EdgeKey)
    (properties : Properties) : (g.addEdge strategy k properties).hasEdge k = true :=
  hasEdge_iff.2 ⟨_, (get?_edges_addEdge g k k properties).trans (if_pos rfl)⟩

theorem edgeCount_eq_length_keys (g : Graph) : g.edgeCount = g.edges.keys.length :=
  (List.length_map _).symm

theorem edgeCount_addEdge (g : Graph) (strategy : EndpointStrategy) (k : EdgeKey)
    (properties : Properties) :
    (g.addEdge strategy k properties).edgeCount + (g.hasEdge k).toNat = g.edgeCount + 1 := by
  rw [edgeCount_eq_length_keys, edgeCount_eq_length_keys, addEdge_eq, edges_countEdge,
    OrderedMap.keys_insert]
  by_cases hk : k ∈ g.edges.keys
  · rw [if_pos hk, hasEdge, OrderedMap.contains_eq_true_iff.2 hk]
    rfl
  · have hnot : g.hasEdge k = false :=
      Bool.eq_false_iff.2 fun h => hk (OrderedMap.contains_eq_true_iff.1 h)
    rw [if_neg hk, hnot, List.length_append]
    rfl

/-- An edge between stored nodes changes no contents. -/
theorem contents_addEdge {k : EdgeKey} (hs : g.hasNode k.start = true)
    (hf : g.hasNode k.finish = true) (properties : Properties) :
    (g.addEdge strategy k properties).contents = g.contents := by
  rw [addEdge_eq, contents_countEdge, addEndpoints_of_stored hs hf, ite_self]
  rfl

theorem contents_removeEdge (g : Graph) (k : EdgeKey) :
    (g.removeEdge k).contents = g.contents := by
  rw [removeEdge]
  split
  · exact contents_uncountEdge _ _
  · rfl

/-- There is nothing to take out of a graph that lacks the edge. -/
theorem takeEdge_of_missing {k : EdgeKey} (hk : g.hasEdge k = false) :
    g.takeEdge k = (g, false) := by
  have hkept : g.removeEdge k = g := if_neg (Bool.eq_false_iff.1 hk)
  rw [takeEdge, hkept, hasEdge_eq_false_iff.1 hk]
  rfl

theorem get?_edges_removeEdge (g : Graph) (k other : EdgeKey) :
    (g.removeEdge k).edges.get? other = if other = k then none else g.edges.get? other := by
  rw [removeEdge]
  split
  · exact OrderedMap.get?_erase _ _ _
  · next hk =>
    by_cases h : other = k
    · rw [if_pos h, h]
      exact hasEdge_eq_false_iff.1 (Bool.not_eq_true _ ▸ hk)
    · rw [if_neg h]

end Graph

end PropertyGraph

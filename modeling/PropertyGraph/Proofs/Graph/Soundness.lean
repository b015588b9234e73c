/-
The invariant of every graph that updates build from the empty one.

`Graph.Sound` ties the stored edges to the counters of the nodes.  The counters
count submissions and not edges, since adding an edge again counts it again, so
they only bound the stored edges from above; the two ends of an edge agree on
its count.  Each update keeps the invariant, and so does a whole run:

* **`Sound.addNode`**, **`Sound.addEdge`**, **`Sound.removeEdge`**,
  **`Sound.moveEdge`**, **`Sound.readText`**, **`Sound.unifySynonyms`** — one
  lemma for each update;
* **`run_sound`** — every graph of a run is sound;
* **`run_invariants`** — what that says of nodes, edges and counters, spelled
  out, with the names that are stored and the bound on all counters, and that a
  stored edge is always counted at both its ends when it is removed.
-/
import Mathlib.Data.List.Nodup
import PropertyGraph.Proofs.Graph.Insertions
import PropertyGraph.Proofs.Graph.Names

namespace PropertyGraph

/-- No label stands twice, and both counters hold neighbours that are counted. -/
structure Node.Sound (n : Node) : Prop where
  labels_nodup : n.labels.Nodup
  outgoing_positive : n.outgoing.Positive
  incoming_positive : n.incoming.Positive

theorem Node.sound_create (id : NodeId) (labels : List String) (properties : Properties) :
    (create id labels properties).Sound where
  labels_nodup := nodup_appendNew List.nodup_nil
  outgoing_positive := Counter.positive_empty
  incoming_positive := Counter.positive_empty

theorem Node.Sound.update {n : Node} (hn : n.Sound) (labels : List String)
    (properties : Properties) : (n.update labels properties).Sound where
  labels_nodup := nodup_appendNew hn.labels_nodup
  outgoing_positive := hn.outgoing_positive
  incoming_positive := hn.incoming_positive

namespace Graph

variable {strategy : EndpointStrategy} {g : Graph}

/-- The stored edges from `a` to `b`, whatever their labels. -/
def edgesBetween (g : Graph) (a b : NodeId) : List EdgeKey :=
  g.edges.keys.filter fun k => k.start = a ∧ k.finish = b

/-- Both ends of every edge are stored, and what the two ends of edges count
agrees and is no less than the number of stored edges. -/
structure Sound (g : Graph) : Prop where
  hasNode_start : ∀ k, g.hasEdge k = true → g.hasNode k.start = true
  hasNode_finish : ∀ k, g.hasEdge k = true → g.hasNode k.finish = true
  node : ∀ id n, g.node? id = some n → n.Sound
  outCount_eq_inCount : ∀ a b, g.outCount a b = g.inCount b a
  edgesBetween_le : ∀ a b, (g.edgesBetween a b).length ≤ g.outCount a b

theorem sound_empty : Sound empty where
  hasNode_start k hk := by simp [hasEdge, empty, OrderedMap.contains, OrderedMap.empty] at hk
  hasNode_finish k hk := by simp [hasEdge, empty, OrderedMap.contains, OrderedMap.empty] at hk
  node id n hn := by simp [node?, empty] at hn
  outCount_eq_inCount a b := rfl
  edgesBetween_le a b := Nat.le_refl _

theorem mem_edgesBetween {k : EdgeKey} {a b : NodeId} :
    k ∈ g.edgesBetween a b ↔ g.hasEdge k = true ∧ k.start = a ∧ k.finish = b := by
  rw [edgesBetween, List.mem_filter, decide_eq_true_iff, hasEdge, OrderedMap.contains_eq_true_iff]

/-- A stored edge is counted at its start. -/
theorem Sound.outCount_pos (hg : g.Sound) {k : EdgeKey} (hk : g.hasEdge k = true) :
    0 < g.outCount k.start k.finish :=
  Nat.lt_of_lt_of_le (List.length_pos_of_mem (mem_edgesBetween.2 ⟨hk, rfl, rfl⟩))
    (hg.edgesBetween_le k.start k.finish)

/-- A stored edge is counted at its end. -/
theorem Sound.inCount_pos (hg : g.Sound) {k : EdgeKey} (hk : g.hasEdge k = true) :
    0 < g.inCount k.finish k.start :=
  hg.outCount_eq_inCount k.start k.finish ▸ hg.outCount_pos hk

/-! ### One update -/

/-- A new edge is one more between its ends. -/
theorem length_edgesBetween_insert_of_new {k : EdgeKey} (hk : ¬g.hasEdge k = true)
    (e : Edge) (a b : NodeId) :
    (edgesBetween { g with edges := g.edges.insert k e } a b).length =
      (g.edgesBetween a b).length + if a = k.start ∧ b = k.finish then 1 else 0 := by
  have hnew : k ∉ g.edges.keys := fun h => hk (OrderedMap.contains_eq_true_iff.2 h)
  have hends : k.start = a ∧ k.finish = b ↔ a = k.start ∧ b = k.finish :=
    and_congr eq_comm eq_comm
  simp only [edgesBetween, OrderedMap.keys_insert, if_neg hnew, List.filter_append,
    List.length_append, List.filter_singleton, hends]
  by_cases h : a = k.start ∧ b = k.finish <;> simp [h]

theorem length_edgesBetween_insert (g : Graph) (k : EdgeKey) (e : Edge) (a b : NodeId) :
    (edgesBetween { g with edges := g.edges.insert k e } a b).length ≤
      (g.edgesBetween a b).length + if a = k.start ∧ b = k.finish then 1 else 0 := by
  by_cases hk : g.hasEdge k = true
  · -- The edge was stored before: there are as many as there were.
    have hkeys : (g.edges.insert k e).keys = g.edges.keys := by
      rw [OrderedMap.keys_insert, if_pos (OrderedMap.contains_eq_true_iff.1 hk)]
    simp only [edgesBetween, hkeys]
    exact Nat.le_add_right _ _
  · exact Nat.le_of_eq (length_edgesBetween_insert_of_new hk e a b)

theorem length_edgesBetween_erase {k : EdgeKey} (hk : g.hasEdge k = true) (a b : NodeId) :
    (edgesBetween { g with edges := g.edges.erase k } a b).length =
      (g.edgesBetween a b).length - if a = k.start ∧ b = k.finish then 1 else 0 := by
  have herase : edgesBetween { g with edges := g.edges.erase k } a b =
      (g.edgesBetween a b).erase k := by
    have hnodup : (g.edgesBetween a b).Nodup := g.edges.nodup.filter _
    rw [hnodup.erase_eq_filter, edgesBetween, edgesBetween, OrderedMap.keys_erase,
      List.filter_comm]
    congr 1
    funext k'
    by_cases hk' : k' = k <;> simp [hk']
  rw [herase, List.length_erase]
  by_cases h : a = k.start ∧ b = k.finish
  · rw [if_pos h, if_pos (mem_edgesBetween.2 ⟨hk, h.1.symm, h.2.symm⟩)]
  · -- An edge between other nodes is not among these.
    rw [if_neg h, if_neg]
    · rfl
    · intro hmem
      obtain ⟨-, hs, hf⟩ := mem_edgesBetween.1 hmem
      exact h ⟨hs.symm, hf.symm⟩

theorem Sound.addNode (hg : g.Sound) (id : NodeId) (labels : List String)
    (properties : Properties) : (g.addNode id labels properties).Sound where
  hasNode_start k hk := hasNode_addNode.2 (.inr (hg.hasNode_start k hk))
  hasNode_finish k hk := hasNode_addNode.2 (.inr (hg.hasNode_finish k hk))
  node := forall_node_addNode hg.node (Node.sound_create id labels properties) fun _ hn =>
    hn.update labels properties
  outCount_eq_inCount a b := by
    rw [outCount_addNode, inCount_addNode]
    exact hg.outCount_eq_inCount a b
  edgesBetween_le a b := by
    rw [outCount_addNode]
    exact hg.edgesBetween_le a b

theorem node_sound_countEdge (h : ∀ id n, g.node? id = some n → n.Sound) (k : EdgeKey) (id : NodeId)
    (n : Node) (hn : (g.countEdge k).node? id = some n) : n.Sound := by
  rw [node?_countEdge, Option.map_eq_some_iff] at hn
  obtain ⟨old, hold, rfl⟩ := hn
  obtain ⟨hlabels, hout, hin⟩ := h id old hold
  refine ⟨hlabels, ?_, ?_⟩
  · dsimp only
    split
    · exact hout.increment _
    · exact hout
  · dsimp only
    split
    · exact hin.increment _
    · exact hin

/-- An edge between stored nodes can be stored and counted. -/
theorem Sound.link (hg : g.Sound) {k : EdgeKey} (hs : g.hasNode k.start = true)
    (hf : g.hasNode k.finish = true) (e : Edge) :
    (countEdge { g with edges := g.edges.insert k e } k).Sound := by
  have hnode : ∀ id, (countEdge { g with edges := g.edges.insert k e } k).hasNode id =
      g.hasNode id := fun id => by
    simp only [hasNode, countEdge, OrderedMap.contains_modify]
  have hedge : ∀ k', (countEdge { g with edges := g.edges.insert k e } k).hasEdge k' = true →
      k' = k ∨ g.hasEdge k' = true := fun k' hk' => OrderedMap.contains_insert.1 hk'
  constructor
  case hasNode_start =>
    intro k' hk'
    rw [hnode]
    obtain rfl | hold := hedge k' hk'
    · exact hs
    · exact hg.hasNode_start k' hold
  case hasNode_finish =>
    intro k' hk'
    rw [hnode]
    obtain rfl | hold := hedge k' hk'
    · exact hf
    · exact hg.hasNode_finish k' hold
  case node => exact node_sound_countEdge (by exact hg.node) k
  case outCount_eq_inCount =>
    intro a b
    rw [outCount_countEdge _ _ (by exact hs), inCount_countEdge _ _ (by exact hf)]
    exact congrArg (· + _) (hg.outCount_eq_inCount a b)
  case edgesBetween_le =>
    -- At most one edge more, and exactly one count.
    intro a b
    rw [outCount_countEdge _ _ (by exact hs)]
    exact Nat.le_trans (length_edgesBetween_insert g k e a b)
      (Nat.add_le_add_right (hg.edgesBetween_le a b) _)

theorem hasNode_addEndpoints {k : EdgeKey} {properties : Properties} {id : NodeId} :
    (addEndpoints strategy g k properties).hasNode id = true ↔
      id = k.start ∨ id = k.finish ∨ g.hasNode id = true := by
  simp only [addEndpoints]
  by_cases hs : g.hasNode k.start = true
  · rw [if_pos hs]
    split
    · grind
    · rw [hasNode_addNode]
      grind
  · rw [if_neg hs]
    split
    · next hf =>
      rw [hasNode_addNode] at hf ⊢
      grind
    · rw [hasNode_addNode, hasNode_addNode]
      grind

theorem Sound.addEndpoints (hg : g.Sound) (k : EdgeKey) (properties : Properties) :
    (addEndpoints strategy g k properties).Sound :=
  addEndpoints_induction (fun _ hh => hh.addNode _ _ _) (fun _ hh => hh.addNode _ _ _) hg

theorem Sound.addEdge (hg : g.Sound) (k : EdgeKey) (properties : Properties) :
    (g.addEdge strategy k properties).Sound := by
  rw [addEdge_eq]
  by_cases hk : g.hasEdge k = true
  · rw [if_pos hk]
    exact hg.link (hg.hasNode_start k hk) (hg.hasNode_finish k hk) _
  · rw [if_neg hk]
    have hends : (Graph.addEndpoints strategy g k properties).Sound := hg.addEndpoints k properties
    have hlink := hends.link (k := k) (hasNode_addEndpoints.2 (.inl rfl))
      (hasNode_addEndpoints.2 (.inr (.inl rfl)))
      (g.submitted k properties)
    rw [edges_addEndpoints] at hlink
    exact hlink

theorem hasNode_addEdge (hg : g.Sound) {strategy : EndpointStrategy} {k : EdgeKey}
    {properties : Properties} {id : NodeId} :
    (g.addEdge strategy k properties).hasNode id = true ↔
      g.hasNode id = true ∨ id = k.start ∨ id = k.finish := by
  have hnode : ∀ (h : Graph) (edges : OrderedMap EdgeKey Edge),
      (countEdge { h with edges } k).hasNode id = h.hasNode id := fun h edges => by
    simp only [hasNode, countEdge, OrderedMap.contains_modify]
  rw [addEdge_eq, hnode]
  by_cases hk : g.hasEdge k = true
  · -- The ends of a stored edge are stored.
    rw [if_pos hk]
    refine ⟨.inl, ?_⟩
    rintro (h | rfl | rfl)
    · exact h
    · exact hg.hasNode_start k hk
    · exact hg.hasNode_finish k hk
  · rw [if_neg hk, hasNode_addEndpoints, or_comm, or_assoc, or_comm (a := id = k.finish)]
    grind

/-- Adding an edge counts it once more, whether it was stored or not. -/
theorem outCount_addEdge (hg : g.Sound) {strategy : EndpointStrategy} (k : EdgeKey)
    (properties : Properties) (a b : NodeId) :
    (g.addEdge strategy k properties).outCount a b =
      g.outCount a b + if a = k.start ∧ b = k.finish then 1 else 0 := by
  rw [addEdge_eq]
  by_cases hk : g.hasEdge k = true
  · rw [if_pos hk]
    exact outCount_countEdge _ k (hg.hasNode_start k hk) a b
  · rw [if_neg hk, ← outCount_addEndpoints strategy g k properties]
    exact outCount_countEdge _ k (hasNode_addEndpoints.2 (.inl rfl)) a b

theorem Sound.removeEdge (hg : g.Sound) (k : EdgeKey) : (g.removeEdge k).Sound := by
  rw [Graph.removeEdge]
  split
  case isFalse => exact hg
  case isTrue hk =>
    have hnode : ∀ id, (uncountEdge { g with edges := g.edges.erase k } k).hasNode id =
        g.hasNode id := fun id => by
      simp only [hasNode, uncountEdge, OrderedMap.contains_modify]
    have hedge : ∀ k', (uncountEdge { g with edges := g.edges.erase k } k).hasEdge k' = true →
        g.hasEdge k' = true := fun k' hk' => (OrderedMap.contains_erase.1 hk').2
    constructor
    case hasNode_start => exact fun k' hk' => hnode _ ▸ hg.hasNode_start k' (hedge k' hk')
    case hasNode_finish => exact fun k' hk' => hnode _ ▸ hg.hasNode_finish k' (hedge k' hk')
    case node =>
      intro id n hn
      rw [node?_uncountEdge, Option.map_eq_some_iff] at hn
      obtain ⟨old, hold, rfl⟩ := hn
      obtain ⟨hlabels, hout, hin⟩ := hg.node id old hold
      refine ⟨hlabels, ?_, ?_⟩
      · dsimp only
        split
        · exact hout.decrement _
        · exact hout
      · dsimp only
        split
        · exact hin.decrement _
        · exact hin
    case outCount_eq_inCount =>
      intro a b
      rw [outCount_uncountEdge, inCount_uncountEdge]
      exact congrArg (· - _) (hg.outCount_eq_inCount a b)
    case edgesBetween_le =>
      -- The edge leaves the edges between its ends and one count of them.
      intro a b
      rw [outCount_uncountEdge]
      exact Nat.le_trans (Nat.le_of_eq (length_edgesBetween_erase hk a b))
        (Nat.sub_le_sub_right (hg.edgesBetween_le a b) _)

/-! ### Updates in a row -/

/-- The three updates that all others are made of keep a graph sound, whatever
properties are added. -/
theorem invariant_sound (strategy : EndpointStrategy) :
    Invariant strategy (fun _ => True) Sound where
  addNode hg id labels _ _ := hg.addNode id labels _
  addEdge hg k _ _ := hg.addEdge k _
  removeEdge hg k := hg.removeEdge k
  stored _ _ _ _ := trivial
  marked := trivial
  recorded _ := trivial

theorem Sound.moveEdge (hg : g.Sound) (k : EdgeKey) (newStart newFinish : Option NodeId) :
    (g.moveEdge strategy k newStart newFinish).1.Sound :=
  (invariant_sound strategy).moveEdge hg k newStart newFinish

/-- What has been read before a malformed line stays, and it is sound. -/
theorem Sound.readText (hg : g.Sound) (text : String) : (g.readText strategy text).1.Sound :=
  (invariant_sound strategy).readText hg text

theorem sound_moveEnds {source target : NodeId} (state : Graph × Nat) (k : EdgeKey)
    (hstate : state.1.Sound) : (moveEnds strategy source target state k).1.Sound :=
  (invariant_sound strategy).keptByMoves.moveEnds state k hstate

theorem sound_unifyMember {relation : String} {canonical : NodeId}
    (state : Graph × SynonymReport) (member : NodeId) (hstate : state.1.Sound) :
    (unifyMember strategy relation canonical state member).1.Sound :=
  (invariant_sound strategy).unifyMember state member hstate

theorem Sound.unifySynonyms (hg : g.Sound) (config : SynonymConfig) :
    (g.unifySynonyms strategy config).1.Sound :=
  (invariant_sound strategy).unifySynonyms hg config

theorem run_sound (updates : List (EndpointStrategy × Update)) : (run updates).Sound :=
  run_induction sound_empty fun u _ => ⟨invariant_sound u.1, u.2.supplies_true⟩

/-- Whether both ends of an edge count it, so that it can be taken out of the
counts at both. -/
def isCounted (g : Graph) (k : EdgeKey) : Bool :=
  (g.node? k.start).any (fun n => n.outgoing.contains k.finish) &&
    (g.node? k.finish).any fun n => n.incoming.contains k.start

theorem contains_outgoing_iff {g : Graph} (hg : g.Sound) {a b : NodeId} {n : Node}
    (hn : g.node? a = some n) : n.outgoing.contains b = true ↔ 0 < g.outCount a b := by
  rw [OrderedMap.contains_eq_true_iff, (hg.node a n hn).outgoing_positive.mem_keys_iff, outCount,
    hn]
  rfl

theorem contains_incoming_iff {g : Graph} (hg : g.Sound) {a b : NodeId} {n : Node}
    (hn : g.node? b = some n) : n.incoming.contains a = true ↔ 0 < g.inCount b a := by
  rw [OrderedMap.contains_eq_true_iff, (hg.node b n hn).incoming_positive.mem_keys_iff, inCount,
    hn]
  rfl

/-- Every neighbour that a node counts is stored. -/
theorem Sound.hasNode_of_outCount_pos {g : Graph} (hg : g.Sound) {a b : NodeId}
    (h : 0 < g.outCount a b) : g.hasNode b = true :=
  hasNode_of_inCount_pos (hg.outCount_eq_inCount a b ▸ h)

theorem Sound.isCounted {g : Graph} (hg : g.Sound) {k : EdgeKey} (hk : g.hasEdge k = true) :
    g.isCounted k = true := by
  obtain ⟨s, hs⟩ := hasNode_iff.1 (hg.hasNode_start k hk)
  obtain ⟨f, hf⟩ := hasNode_iff.1 (hg.hasNode_finish k hk)
  rw [Graph.isCounted, hs, hf, Bool.and_eq_true]
  exact ⟨(contains_outgoing_iff hg hs).2 (hg.outCount_pos hk),
    (contains_incoming_iff hg hf).2 (hg.inCount_pos hk)⟩

/-- An entry of a counter of a stored node is positive and names a stored node. -/
theorem Sound.entry {g : Graph} (hg : g.Sound) {id : NodeId} {n : Node} (hn : g.node? id = some n)
    {e : NodeId × Nat} (he : e ∈ n.outgoing.entries ++ n.incoming.entries) :
    1 ≤ e.2 ∧ g.hasNode e.1 = true := by
  obtain hout | hin := List.mem_append.1 he
  · have hpos := (hg.node id n hn).outgoing_positive e.1 (List.mem_map_of_mem hout)
    refine ⟨Counter.count_of_mem hout ▸ hpos, hg.hasNode_of_outCount_pos (a := id) ?_⟩
    rw [outCount, hn]
    exact hpos
  · have hpos := (hg.node id n hn).incoming_positive e.1 (List.mem_map_of_mem hin)
    refine ⟨Counter.count_of_mem hin ▸ hpos, Graph.hasNode_of_outCount_pos (b := id) ?_⟩
    rw [hg.outCount_eq_inCount, inCount, hn]
    exact hpos

/-- Removing a stored edge takes one off its count at either end. -/
theorem Sound.counts_removeEdge {g : Graph} (hg : g.Sound) {k : EdgeKey}
    (hk : g.hasEdge k = true) (a b : NodeId) :
    (g.removeEdge k).outCount a b + (if a = k.start ∧ b = k.finish then 1 else 0) =
        g.outCount a b ∧
      (g.removeEdge k).inCount b a + (if a = k.start ∧ b = k.finish then 1 else 0) =
        g.inCount b a := by
  rw [Graph.removeEdge, if_pos hk, outCount_uncountEdge, inCount_uncountEdge]
  by_cases h : a = k.start ∧ b = k.finish
  · obtain ⟨rfl, rfl⟩ := h
    rw [if_pos ⟨rfl, rfl⟩]
    exact ⟨Nat.sub_add_cancel (hg.outCount_pos hk), Nat.sub_add_cancel (hg.inCount_pos hk)⟩
  · rw [if_neg h]
    exact ⟨rfl, rfl⟩

/-- **The invariant of every run.**  Both ends of every edge are stored; nodes and edges
bear the names that they are stored under; no node has a label twice; the two ends of
edges agree on their count, whose entries are positive, name stored nodes and are no more
than the insertions of the run, so that fewer than `2 ^ 32` of these fit into words of
thirty-two bits; the count is no less than the number of stored edges; so an edge can
always be taken out of the counts at both its ends. -/
theorem run_invariants (updates : List (EndpointStrategy × Update)) :
    let g := run updates
    (∀ k, g.hasEdge k = true → g.hasNode k.start = true ∧ g.hasNode k.finish = true) ∧
    (∀ id n, (id, n) ∈ g.nodes.entries → n.id = id ∧ n.labels.Nodup) ∧
    (∀ k e, (k, e) ∈ g.edges.entries → e.key = k) ∧
    (∀ a b, g.outCount a b = g.inCount b a) ∧
    (∀ id n, g.node? id = some n → ∀ e ∈ n.outgoing.entries ++ n.incoming.entries,
      1 ≤ e.2 ∧ e.2 ≤ insertions updates ∧ g.hasNode e.1 = true) ∧
    (∀ a b, (g.edgesBetween a b).length ≤ g.outCount a b) ∧
    ∀ k, g.hasEdge k = true → g.isCounted k = true ∧ ∀ a b,
      (g.removeEdge k).outCount a b + (if a = k.start ∧ b = k.finish then 1 else 0) =
          g.outCount a b ∧
        (g.removeEdge k).inCount b a + (if a = k.start ∧ b = k.finish then 1 else 0) =
          g.inCount b a := by
  intro g
  have hg : g.Sound := run_sound updates
  have hkeyed : g.Keyed := run_keyed updates
  have hbound : CountsUpTo (insertions updates) g := (run_built updates).countsUpTo
  refine ⟨fun k hk => ⟨hg.hasNode_start k hk, hg.hasNode_finish k hk⟩, fun id n hn => ?_,
    fun k e he => hkeyed.edge k e (OrderedMap.get?_eq_some_iff.2 he), hg.outCount_eq_inCount,
    fun id n hn e he => ?_, hg.edgesBetween_le,
    fun k hk => ⟨hg.isCounted hk, hg.counts_removeEdge hk⟩⟩
  · have hid : g.node? id = some n := OrderedMap.get?_eq_some_iff.2 hn
    exact ⟨hkeyed.node id n hid, (hg.node id n hid).labels_nodup⟩
  · obtain ⟨hpos, hstored⟩ := hg.entry hn he
    exact ⟨hpos, hbound.entry_le hn he, hstored⟩

end Graph

end PropertyGraph

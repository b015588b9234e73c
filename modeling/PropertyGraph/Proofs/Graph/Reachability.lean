/-
The search for connected nodes finds exactly what paths reach.

`Graph.Reaches` speaks of the stored edges alone, while the search goes by the
counters of the nodes and asks for an edge only then.  In a sound graph the two
agree, since every stored edge is counted at both its ends and a count without
an edge links nothing:

* **`mem_linkedNeighbours`** — one step of the search is one edge;
* **`Search.mem_rings`** — the loop, from an invariant of what has been found;
* **`mem_connected`**, **`nodup_connected`** — the whole search.
-/
import Mathlib.Data.List.Perm.Subperm
import Mathlib.Logic.Relation
import PropertyGraph.Graph.Connectivity
import PropertyGraph.Proofs.Graph.Soundness

namespace PropertyGraph.Graph

variable {g : Graph} {relations : List String}

/-- An edge of one of the relations runs between two nodes, in either
direction. -/
def Adjacent (g : Graph) (relations : List String) (a b : NodeId) : Prop :=
  ∃ r ∈ relations, g.isLinked a r b = true

/-- A finite path of edges of the relations, each passed in either direction,
leads from one node to another. -/
def Reaches (g : Graph) (relations : List String) : NodeId → NodeId → Prop :=
  Relation.ReflTransGen (g.Adjacent relations)

theorem isLinked_iff {a b : NodeId} {r : String} :
    g.isLinked a r b = true ↔ g.hasEdge ⟨a, r, b⟩ = true ∨ g.hasEdge ⟨b, r, a⟩ = true := by
  rw [isLinked, Bool.or_eq_true]

theorem Adjacent.symm {a b : NodeId} (h : g.Adjacent relations a b) : g.Adjacent relations b a := by
  obtain ⟨r, hr, hab⟩ := h
  exact ⟨r, hr, isLinked_iff.2 (isLinked_iff.1 hab).symm⟩

theorem Reaches.symm {a b : NodeId} (h : g.Reaches relations a b) : g.Reaches relations b a := by
  induction h with
  | refl => exact .refl
  | tail _ hbc ih => exact Relation.ReflTransGen.head hbc.symm ih

theorem Reaches.trans {a b c : NodeId} (hab : g.Reaches relations a b)
    (hbc : g.Reaches relations b c) : g.Reaches relations a c :=
  Relation.ReflTransGen.trans hab hbc

/-- What links nodes in one graph may be a path in another. -/
theorem Reaches.of_forall_adjacent {g' : Graph}
    (h : ∀ a b, g.Adjacent relations a b → g'.Reaches relations a b) {a b : NodeId}
    (hab : g.Reaches relations a b) : g'.Reaches relations a b := by
  induction hab with
  | refl => exact .refl
  | tail _ hbc ih => exact ih.trans (h _ _ hbc)

theorem adjacent_singleton {relation : String} {a b : NodeId} :
    g.Adjacent [relation] a b ↔
      g.hasEdge ⟨a, relation, b⟩ = true ∨ g.hasEdge ⟨b, relation, a⟩ = true := by
  simp only [Adjacent, List.mem_singleton, exists_eq_left, isLinked_iff]

theorem Sound.hasNode_of_adjacent (hg : g.Sound) {a b : NodeId} (h : g.Adjacent relations a b) :
    g.hasNode a = true ∧ g.hasNode b = true := by
  obtain ⟨r, -, hab⟩ := h
  obtain hedge | hedge := isLinked_iff.1 hab
  · exact ⟨hg.hasNode_start _ hedge, hg.hasNode_finish _ hedge⟩
  · exact ⟨hg.hasNode_finish _ hedge, hg.hasNode_start _ hedge⟩

theorem Sound.hasNode_of_reaches (hg : g.Sound) {a b : NodeId} (ha : g.hasNode a = true)
    (h : g.Reaches relations a b) : g.hasNode b = true := by
  induction h with
  | refl => exact ha
  | tail _ hbc _ => exact (hg.hasNode_of_adjacent hbc).2

/-! ### One step -/

theorem mem_neighbours {n : Node} {id : NodeId} :
    id ∈ n.neighbours ↔ n.incoming.contains id = true ∨ n.outgoing.contains id = true := by
  simp only [Node.neighbours, List.mem_append, List.mem_filter, ← OrderedMap.contains_eq_true_iff]
  cases n.incoming.contains id <;> simp

/-- An edge between two nodes makes them neighbours of each other. -/
theorem Sound.mem_neighbours_of_hasEdge (hg : g.Sound) {k : EdgeKey} (hk : g.hasEdge k = true) :
    (∀ n, g.node? k.start = some n → k.finish ∈ n.neighbours) ∧
      ∀ n, g.node? k.finish = some n → k.start ∈ n.neighbours :=
  ⟨fun _ hn => mem_neighbours.2 (.inr ((contains_outgoing_iff hg hn).2 (hg.outCount_pos hk))),
    fun _ hn => mem_neighbours.2 (.inl ((contains_incoming_iff hg hn).2 (hg.inCount_pos hk)))⟩

/-- The linked neighbours are the adjacent nodes: counts that outlive their
edges link nothing, and no edge goes uncounted. -/
theorem mem_linkedNeighbours (hg : g.Sound) {a b : NodeId} :
    b ∈ g.linkedNeighbours relations a ↔ g.Adjacent relations a b := by
  have hlink : (relations.any fun r => g.isLinked a r b) = true ↔ g.Adjacent relations a b := by
    rw [List.any_eq_true]
    rfl
  rw [linkedNeighbours]
  split
  · next n hn =>
    rw [List.mem_filter, hlink]
    -- A linked node is counted, so asking the counters first leaves none out.
    refine ⟨And.right, fun h => ⟨?_, h⟩⟩
    obtain ⟨r, -, hab⟩ := h
    obtain hedge | hedge := isLinked_iff.1 hab
    · exact (hg.mem_neighbours_of_hasEdge hedge).1 n hn
    · exact (hg.mem_neighbours_of_hasEdge hedge).2 n hn
  · next hn =>
    refine ⟨fun h => absurd h List.not_mem_nil, fun h => ?_⟩
    obtain ⟨n, hn'⟩ := hasNode_iff.1 (hg.hasNode_of_adjacent h).1
    rw [hn] at hn'
    cases hn'

/-! ### The search -/

/-- What has been found on the way from a node: only what it reaches, and
nothing twice; only the last ring may have neighbours that are not found. -/
structure Search (g : Graph) (relations : List String) (start : NodeId)
    (found ring : List NodeId) : Prop where
  nodup : found.Nodup
  start_mem : start ∈ found
  reaches : ∀ a ∈ found, g.Reaches relations start a
  ring_subset : ring ⊆ found
  closed : ∀ a ∈ found, a ∉ ring → ∀ b, g.Adjacent relations a b → b ∈ found

variable {start : NodeId} {found ring : List NodeId}

theorem search_start (g : Graph) (relations : List String) (start : NodeId) :
    Search g relations start [start] [start] where
  nodup := List.nodup_singleton start
  start_mem := List.mem_singleton.2 rfl
  reaches _ ha := List.mem_singleton.1 ha ▸ .refl
  ring_subset := List.Subset.refl _
  closed _ ha hring := absurd ha hring

theorem Search.mem_of_reaches (h : Search g relations start found []) {a : NodeId}
    (ha : g.Reaches relations start a) : a ∈ found := by
  induction ha with
  | refl => exact h.start_mem
  | tail _ hbc ih => exact h.closed _ ih List.not_mem_nil _ hbc

/-- Found nodes are stored, so there are no more of them than nodes. -/
theorem Search.length_le (h : Search g relations start found ring) (hg : g.Sound)
    (hs : g.hasNode start = true) : found.length ≤ g.nodeCount := by
  have hsub : found ⊆ g.nodes.keys := fun a ha =>
    OrderedMap.contains_eq_true_iff.1 (hg.hasNode_of_reaches hs (h.reaches a ha))
  have hlen := (List.subperm_of_subset h.nodup hsub).length_le
  rwa [OrderedMap.keys, List.length_map] at hlen

theorem Search.extend (h : Search g relations start found ring) (hg : g.Sound) :
    Search g relations start (g.extend relations found ring)
      ((g.extend relations found ring).drop found.length) := by
  obtain ⟨new, hnew⟩ := prefix_appendNew found (ring.flatMap (g.linkedNeighbours relations))
  have hmem : ∀ {b}, b ∈ g.extend relations found ring ↔
      b ∈ found ∨ ∃ a ∈ ring, g.Adjacent relations a b := by
    intro b
    simp only [Graph.extend, mem_appendNew, List.mem_flatMap, mem_linkedNeighbours hg]
  have hext : g.extend relations found ring = found ++ new := hnew.symm
  constructor
  case nodup => exact nodup_appendNew h.nodup
  case start_mem => exact hmem.2 (.inl h.start_mem)
  case reaches =>
    intro b hb
    obtain hfound | ⟨a, ha, hab⟩ := hmem.1 hb
    · exact h.reaches b hfound
    · exact (h.reaches a (h.ring_subset ha)).tail hab
  case ring_subset => exact List.drop_subset _ _
  case closed =>
    intro a ha hring b hab
    rw [hext, List.drop_left] at hring
    rw [hext] at ha
    have hfound : a ∈ found := (List.mem_append.1 ha).resolve_right hring
    -- The last ring has been closed by this step, what lies within it before.
    by_cases hold : a ∈ ring
    · exact hmem.2 (.inr ⟨a, hold, hab⟩)
    · exact hmem.2 (.inl (h.closed a hfound hold b hab))

/-- With a ring to spare for every node that is not found yet, the rings hold
exactly what the start reaches, each node once. -/
theorem Search.rings (h : Search g relations start found ring) (hg : g.Sound)
    (hs : g.hasNode start = true) {n : Nat} (hn : g.nodeCount < n + found.length) :
    (g.rings relations n found ring).Nodup ∧
      ∀ a, a ∈ g.rings relations n found ring ↔ g.Reaches relations start a := by
  induction n generalizing found ring with
  | zero =>
    have := h.length_le hg hs
    omega
  | succ n ih =>
    have hext := h.extend hg
    rw [Graph.rings]
    split
    · next hlen =>
      -- Nothing new has been found, so the last ring is empty.
      obtain ⟨new, hnew⟩ := prefix_appendNew found (ring.flatMap (g.linkedNeighbours relations))
      have hnil : new = [] := by
        have := congrArg List.length hnew
        rw [List.length_append] at this
        exact List.length_eq_zero_iff.1 (by rw [Graph.extend] at hlen; omega)
      have hsame : g.extend relations found ring = found := by
        rw [Graph.extend, ← hnew, hnil, List.append_nil]
      rw [hsame, List.drop_length] at hext
      exact ⟨hext.nodup, fun a => ⟨hext.reaches a, hext.mem_of_reaches⟩⟩
    · next hlen =>
      have hle : found.length ≤ (g.extend relations found ring).length :=
        (prefix_appendNew found _).length_le
      exact ih hext (by omega)

/-- **The search finds exactly what a stored node reaches.** -/
theorem mem_connected (hg : g.Sound) {a b : NodeId} :
    b ∈ g.connected a relations ↔ g.hasNode a = true ∧ g.Reaches relations a b := by
  rw [connected]
  split
  · next ha =>
    rw [((search_start g relations a).rings hg ha (by simp)).2 b]
    exact (and_iff_right ha).symm
  · next ha => exact ⟨fun h => absurd h List.not_mem_nil, fun h => absurd h.1 ha⟩

theorem nodup_connected (hg : g.Sound) (a : NodeId) : (g.connected a relations).Nodup := by
  rw [connected]
  split
  · next ha => exact ((search_start g relations a).rings hg ha (by simp)).1
  · exact List.nodup_nil

end PropertyGraph.Graph

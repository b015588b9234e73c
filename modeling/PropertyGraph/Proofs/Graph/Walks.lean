/-
Walks along stored edges, and the search for connected nodes.

A walk is a list of stored edges, each passed from either of its ends to the
other.  It speaks of the edges alone, whatever the counters of the nodes have
kept of edges that are gone.

* **`reaches_iff_exists_walk`** — reaching a node is walking to it;
* **`Search.rings_eq_of_le`** — the search comes to its own end, and is never
  cut off;
* **`connected_walks`** — it finds exactly the nodes that walks lead to.
-/
import PropertyGraph.Proofs.Graph.Reachability

namespace PropertyGraph

/-- An edge joins two nodes in either direction. -/
def EdgeKey.Joins (k : EdgeKey) (a b : NodeId) : Prop :=
  k.start = a ∧ k.finish = b ∨ k.start = b ∧ k.finish = a

namespace Graph

variable {g : Graph} {relations : List String}

/-- A walk from one node to another: stored edges of the relations, each of
which joins the node where the walk stands to the next. -/
inductive Walk (g : Graph) (relations : List String) : NodeId → List EdgeKey → NodeId → Prop
  | nil (a : NodeId) : Walk g relations a [] a
  | cons {a b c : NodeId} {k : EdgeKey} {ks : List EdgeKey} (stored : g.hasEdge k = true)
      (label : k.label ∈ relations) (joins : k.Joins a b) (rest : Walk g relations b ks c) :
      Walk g relations a (k :: ks) c

theorem adjacent_iff_exists_joins {a b : NodeId} :
    g.Adjacent relations a b ↔ ∃ k, g.hasEdge k = true ∧ k.label ∈ relations ∧ k.Joins a b := by
  constructor
  · rintro ⟨r, hr, hlink⟩
    obtain hab | hba := isLinked_iff.1 hlink
    · exact ⟨⟨a, r, b⟩, hab, hr, .inl ⟨rfl, rfl⟩⟩
    · exact ⟨⟨b, r, a⟩, hba, hr, .inr ⟨rfl, rfl⟩⟩
  · rintro ⟨k, hk, hr, ⟨rfl, rfl⟩ | ⟨rfl, rfl⟩⟩
    · exact ⟨k.label, hr, isLinked_iff.2 (.inl hk)⟩
    · exact ⟨k.label, hr, isLinked_iff.2 (.inr hk)⟩

theorem reaches_iff_exists_walk {a b : NodeId} :
    g.Reaches relations a b ↔ ∃ ks, g.Walk relations a ks b := by
  constructor
  · intro h
    induction h using Relation.ReflTransGen.head_induction_on with
    | refl => exact ⟨[], .nil b⟩
    | head hadj _ ih =>
      obtain ⟨ks, hwalk⟩ := ih
      obtain ⟨k, hk, hr, hjoins⟩ := adjacent_iff_exists_joins.1 hadj
      exact ⟨k :: ks, .cons hk hr hjoins hwalk⟩
  · rintro ⟨ks, hwalk⟩
    induction hwalk with
    | nil a => exact .refl
    | cons hk hr hjoins _ ih =>
      exact Relation.ReflTransGen.head (adjacent_iff_exists_joins.2 ⟨_, hk, hr, hjoins⟩) ih

/-- Once there is a ring to spare for every node, more of them make no
difference. -/
theorem Search.rings_eq_of_le {start : NodeId} {found ring : List NodeId}
    (h : Search g relations start found ring) (hg : g.Sound) (hs : g.hasNode start = true)
    {n n' : Nat} (hn : g.nodeCount < n + found.length) (hle : n ≤ n') :
    g.rings relations n' found ring = g.rings relations n found ring := by
  induction n generalizing n' found ring with
  | zero =>
    have := h.length_le hg hs
    omega
  | succ n ih =>
    obtain ⟨m, rfl⟩ : ∃ m, n' = m + 1 := ⟨n' - 1, by omega⟩
    rw [Graph.rings, Graph.rings]
    split
    · rfl
    · next hlen =>
      have hgrows : found.length ≤ (g.extend relations found ring).length :=
        (prefix_appendNew found _).length_le
      exact ih (h.extend hg) (by omega) (by omega)

/-- **The search finds exactly what walks lead to.**  From a node that is not
stored nothing is found.  From a stored one, each node is found once to which
some walk along stored edges of the relations leads, the node itself among them;
and the search has then come to its own end, for it finds the same with however
many rings more. -/
theorem connected_walks (updates : List (EndpointStrategy × Update)) (id : NodeId)
    (relations : List String) :
    let g := run updates
    (g.hasNode id = false → g.connected id relations = []) ∧
    (g.hasNode id = true → id ∈ g.connected id relations ∧
      (∀ b, b ∈ g.connected id relations ↔ ∃ ks, g.Walk relations id ks b) ∧
      ∀ n, g.nodeCount ≤ n → g.rings relations n [id] [id] = g.connected id relations) ∧
    (g.connected id relations).Nodup := by
  intro g
  have hg : g.Sound := run_sound updates
  refine ⟨fun hid => ?_, fun hid => ⟨?_, fun b => ?_, fun n hn => ?_⟩, nodup_connected hg id⟩
  · rw [connected, hid]
    rfl
  · exact (mem_connected hg).2 ⟨hid, .refl⟩
  · rw [mem_connected hg, and_iff_right hid, reaches_iff_exists_walk]
  · rw [connected, if_pos hid]
    exact (search_start g relations id).rings_eq_of_le hg hid (by simp) hn

/-- An edge that has been added twice and removed once still counts, and links
nothing. -/
example :
    let k : EdgeKey := ⟨.int 1, "KNOWS", .int 2⟩
    let g := run [(.default, .addEdge k .empty), (.default, .addEdge k .empty),
      (.default, .removeEdge k)]
    g.outCount (.int 1) (.int 2) = 1 ∧ g.connected (.int 1) ["KNOWS"] = [.int 1] := by
  decide

end Graph

end PropertyGraph

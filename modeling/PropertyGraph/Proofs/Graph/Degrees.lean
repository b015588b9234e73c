/-
The sum of all degrees.

An edge that is counted is counted at both its ends, so counting it adds two to
the sum of all degrees and uncounting it takes two away, also where both ends
are one node.  Adding an edge again counts it again; moving an edge uncounts it
in one place and counts it in another.

* **`Sound.degreeSum_addEdge`** — two more, new ends or not;
* **`Sound.degreeSum_removeEdge`** — two less if the edge was stored;
* **`Sound.degreeSum_moveEdge`** — no change, wherever the edge goes.
-/
import PropertyGraph.Proofs.Graph.Soundness
import PropertyGraph.Proofs.Sums

namespace PropertyGraph

/-! ### Degrees of nodes -/

namespace Counter

theorem total_eq_sumOf (c : Counter) : c.total = c.sumOf fun n => n := by
  rw [total, OrderedMap.sumOf, List.map_id', List.sum_eq_foldr]

theorem total_increment (c : Counter) (id : NodeId) : (c.increment id).total = c.total + 1 := by
  have hsum := OrderedMap.sumOf_insert c id (c.count id + 1) fun n => n
  rw [Option.map_id', ← count] at hsum
  rw [total_eq_sumOf, total_eq_sumOf, increment]
  omega

/-- Only a neighbour that is counted can be counted less. -/
theorem total_decrement {c : Counter} {id : NodeId} (h : 0 < c.count id) :
    (c.decrement id).total + 1 = c.total := by
  rw [total_eq_sumOf, total_eq_sumOf, decrement]
  split
  · have hsum := OrderedMap.sumOf_erase c id fun n => n
    rw [Option.map_id', ← count] at hsum
    omega
  · have hsum := OrderedMap.sumOf_insert c id (c.count id - 1) fun n => n
    rw [Option.map_id', ← count] at hsum
    omega

end Counter

namespace Node

theorem degree_create (id : NodeId) (labels : List String) (properties : Properties) :
    (create id labels properties).degree = 0 := rfl

theorem degree_update (n : Node) (labels : List String) (properties : Properties) :
    (n.update labels properties).degree = n.degree := rfl

theorem degree_countOut (n : Node) (id : NodeId) : (n.countOut id).degree = n.degree + 1 := by
  have htotal := n.outgoing.total_increment id
  simp only [degree, inDegree, outDegree, countOut]
  omega

theorem degree_countIn (n : Node) (id : NodeId) : (n.countIn id).degree = n.degree + 1 := by
  have htotal := n.incoming.total_increment id
  simp only [degree, inDegree, outDegree, countIn]
  omega

theorem degree_uncountOut {n : Node} {id : NodeId} (h : 0 < n.outgoing.count id) :
    (n.uncountOut id).degree + 1 = n.degree := by
  have htotal := Counter.total_decrement h
  simp only [degree, inDegree, outDegree, uncountOut]
  omega

theorem degree_uncountIn {n : Node} {id : NodeId} (h : 0 < n.incoming.count id) :
    (n.uncountIn id).degree + 1 = n.degree := by
  have htotal := Counter.total_decrement h
  simp only [degree, inDegree, outDegree, uncountIn]
  omega

end Node

namespace Graph

variable {strategy : EndpointStrategy} {g : Graph}

/-- The sum of the degrees of all nodes. -/
def degreeSum (g : Graph) : Nat := g.nodes.sumOf Node.degree

/-- Changing one node changes the sum as it changes the degree of that node. -/
theorem degreeSum_modify {id : NodeId} {n : Node} (hn : g.node? id = some n) (f : Node → Node) :
    degreeSum { g with nodes := g.nodes.modify id f } + n.degree = g.degreeSum + (f n).degree :=
  OrderedMap.sumOf_modify hn f Node.degree

/-- A new node has no degree, and an update leaves the degree alone. -/
theorem degreeSum_addNode (g : Graph) (id : NodeId) (labels : List String)
    (properties : Properties) : (g.addNode id labels properties).degreeSum = g.degreeSum := by
  simp only [addNode, degreeSum]
  split
  · next n hn =>
    have hsum := OrderedMap.sumOf_insert g.nodes id (n.update labels properties) Node.degree
    rw [hn, Option.map_some, Option.getD_some, Node.degree_update] at hsum
    omega
  · next hn =>
    have hsum := OrderedMap.sumOf_insert g.nodes id (.create id labels properties) Node.degree
    rw [hn, Option.map_none, Option.getD_none, Node.degree_create] at hsum
    omega

theorem degreeSum_addEndpoints (strategy : EndpointStrategy) (g : Graph) (k : EdgeKey)
    (properties : Properties) :
    (addEndpoints strategy g k properties).degreeSum = g.degreeSum := by
  simp only [addEndpoints]
  split <;> split <;> simp only [degreeSum_addNode]

/-! ### Counting -/

theorem degreeSum_countEdge {k : EdgeKey} (hs : g.hasNode k.start = true)
    (hf : g.hasNode k.finish = true) : (g.countEdge k).degreeSum = g.degreeSum + 2 := by
  obtain ⟨s, hs⟩ := hasNode_iff.1 hs
  let g₁ : Graph := { g with nodes := g.nodes.modify k.start (Node.countOut · k.finish) }
  -- The end is looked up again, for it may be the start, which has been changed.
  obtain ⟨f, hf⟩ : ∃ f, g₁.node? k.finish = some f :=
    hasNode_iff.1 ((OrderedMap.contains_modify ..).trans hf)
  have hout : g₁.degreeSum + s.degree = g.degreeSum + (s.countOut k.finish).degree :=
    degreeSum_modify hs (Node.countOut · k.finish)
  have hin : (g.countEdge k).degreeSum + f.degree = g₁.degreeSum + (f.countIn k.start).degree :=
    degreeSum_modify hf (Node.countIn · k.start)
  rw [Node.degree_countOut] at hout
  rw [Node.degree_countIn] at hin
  omega

theorem degreeSum_uncountEdge {k : EdgeKey} (hout : 0 < g.outCount k.start k.finish)
    (hin : 0 < g.inCount k.finish k.start) :
    (g.uncountEdge k).degreeSum + 2 = g.degreeSum := by
  obtain ⟨s, hs⟩ := hasNode_iff.1 (hasNode_of_outCount_pos hout)
  obtain ⟨f, hf⟩ := hasNode_iff.1 (hasNode_of_inCount_pos hin)
  rw [outCount, hs, Option.map_some, Option.getD_some] at hout
  rw [inCount, hf, Option.map_some, Option.getD_some] at hin
  let g₁ : Graph := { g with nodes := g.nodes.modify k.start (Node.uncountOut · k.finish) }
  -- Uncounting what goes out leaves what comes in, also at a node that is both ends.
  obtain ⟨f', hf', hin'⟩ : ∃ f', g₁.node? k.finish = some f' ∧ f'.incoming = f.incoming := by
    rw [node?, OrderedMap.get?_modify]
    by_cases h : k.finish = k.start
    · rw [if_pos h]
      exact ⟨f.uncountOut k.finish, congrArg (Option.map _) hf, rfl⟩
    · rw [if_neg h]
      exact ⟨f, hf, rfl⟩
  have hsum : g₁.degreeSum + s.degree = g.degreeSum + (s.uncountOut k.finish).degree :=
    degreeSum_modify hs (Node.uncountOut · k.finish)
  have hsum' : (g.uncountEdge k).degreeSum + f'.degree =
      g₁.degreeSum + (f'.uncountIn k.start).degree :=
    degreeSum_modify hf' (Node.uncountIn · k.start)
  have hdegree : (s.uncountOut k.finish).degree + 1 = s.degree := Node.degree_uncountOut hout
  have hdegree' : (f'.uncountIn k.start).degree + 1 = f'.degree :=
    Node.degree_uncountIn (by rwa [hin'])
  omega

/-! ### Updates -/

/-- An edge adds two, whether it is new or not and whichever of its ends are. -/
theorem Sound.degreeSum_addEdge (hg : g.Sound) (strategy : EndpointStrategy) (k : EdgeKey)
    (properties : Properties) :
    (g.addEdge strategy k properties).degreeSum = g.degreeSum + 2 := by
  rw [addEdge_eq]
  by_cases hk : g.hasEdge k = true
  · rw [if_pos hk]
    exact degreeSum_countEdge (hg.hasNode_start k hk) (hg.hasNode_finish k hk)
  · rw [if_neg hk, ← degreeSum_addEndpoints strategy g k properties]
    exact degreeSum_countEdge (hasNode_addEndpoints.2 (.inl rfl))
      (hasNode_addEndpoints.2 (.inr (.inl rfl)))

/-- Only a stored edge is removed, and it was counted at both its ends. -/
theorem Sound.degreeSum_removeEdge (hg : g.Sound) (k : EdgeKey) :
    (g.removeEdge k).degreeSum + 2 * (g.hasEdge k).toNat = g.degreeSum := by
  rw [Graph.removeEdge]
  by_cases hk : g.hasEdge k = true
  · rw [if_pos hk, hk]
    exact degreeSum_uncountEdge (hg.outCount_pos hk) (hg.inCount_pos hk)
  · rw [if_neg hk, Bool.eq_false_iff.2 hk]
    rfl

theorem Sound.degreeSum_moveEdge (hg : g.Sound) (k : EdgeKey) (newStart newFinish : Option NodeId) :
    (g.moveEdge strategy k newStart newFinish).1.degreeSum = g.degreeSum := by
  rw [Graph.moveEdge]
  split
  · next e target hk _ =>
    have hremoved := hg.degreeSum_removeEdge k
    have hadded := (hg.removeEdge k).degreeSum_addEdge strategy target e.properties
    rw [hasEdge_iff.2 ⟨e, hk⟩] at hremoved
    exact hadded.trans hremoved
  · rfl

end Graph

end PropertyGraph

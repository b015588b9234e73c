/-
What merging the synonyms of a graph makes of its edges.

The pass handles pairs of a canonical member and another member of its cluster,
one after another.  `Unified` says what a list of pairs has done to the graph,
and is proved pair by pair; the pairs of all clusters may be handled one after
another because no canonical member is merged itself.

* **`unified_unifyMember`**, **`Unified.cons`** — one pair, and one more;
* **`Partition.unifiable`** — the pairs of all clusters;
* **`Sound.unified_unifySynonyms`** — the whole pass.
-/
import PropertyGraph.Proofs.Graph.Moves
import PropertyGraph.Proofs.Graph.Partition

namespace PropertyGraph

/-- The synonym edge from the canonical member to the other. -/
def forward (relation : String) (p : NodeId × NodeId) : EdgeKey := ⟨p.1, relation, p.2⟩

/-- The synonym edge from the other member to the canonical one. -/
def backward (relation : String) (p : NodeId × NodeId) : EdgeKey := ⟨p.2, relation, p.1⟩

theorem forward_inj {relation : String} {p q : NodeId × NodeId} :
    forward relation p = forward relation q ↔ p = q := by
  rw [forward, forward, EdgeKey.mk.injEq, Prod.ext_iff, and_iff_right rfl]

theorem backward_inj {relation : String} {p q : NodeId × NodeId} :
    backward relation p = backward relation q ↔ p = q := by
  rw [backward, backward, EdgeKey.mk.injEq, Prod.ext_iff, and_iff_right rfl, and_comm]

theorem forward_eq_backward {relation : String} {p q : NodeId × NodeId} :
    forward relation p = backward relation q ↔ p.1 = q.2 ∧ p.2 = q.1 := by
  rw [forward, backward, EdgeKey.mk.injEq, and_iff_right rfl]

/-- Every other member of a cluster, after the canonical one. -/
def Cluster.pairs (c : Cluster) : List (NodeId × NodeId) :=
  c.others.map fun m => (c.canonical.id, m.id)

/-- A member that is not the canonical one makes a pair with it. -/
theorem Cluster.mem_pairs_of_mem_ids {c : Cluster} {a : NodeId} (ha : a ∈ c.ids)
    (hne : a ≠ c.canonical.id) : (c.canonical.id, a) ∈ c.pairs := by
  obtain ⟨m, hm, rfl⟩ := exists_other_of_mem_ids ha hne
  exact List.mem_map.2 ⟨m, hm, rfl⟩

/-- Where a node goes when the second of each pair is sent to the first, one
pair after another. -/
def redirectAll (pairs : List (NodeId × NodeId)) (id : NodeId) : NodeId :=
  pairs.foldl (fun id p => redirect p.2 p.1 id) id

/-- The pairs may be merged one after another: their nodes are stored, none is
merged twice, and none that is merged takes another in. -/
structure Unifiable (g : Graph) (pairs : List (NodeId × NodeId)) : Prop where
  stored : ∀ p ∈ pairs, g.hasNode p.1 = true ∧ g.hasNode p.2 = true
  nodup : (pairs.map Prod.snd).Nodup
  apart : ∀ p ∈ pairs, ∀ q ∈ pairs, p.1 ≠ q.2

namespace Unifiable

variable {g g' : Graph} {p : NodeId × NodeId} {pairs : List (NodeId × NodeId)}

theorem tail (h : Unifiable g (p :: pairs)) : Unifiable g pairs where
  stored q hq := h.stored q (List.mem_cons_of_mem p hq)
  nodup := (List.nodup_cons.1 h.nodup).2
  apart q hq r hr := h.apart q (List.mem_cons_of_mem p hq) r (List.mem_cons_of_mem p hr)

theorem of_contents_eq (h : Unifiable g pairs) (hg : g'.contents = g.contents) :
    Unifiable g' pairs where
  stored q hq := by
    rw [Graph.hasNode_of_contents_eq hg, Graph.hasNode_of_contents_eq hg]
    exact h.stored q hq
  nodup := h.nodup
  apart := h.apart

theorem snd_ne (h : Unifiable g (p :: pairs)) {q : NodeId × NodeId} (hq : q ∈ pairs) :
    q.2 ≠ p.2 := fun heq => (List.nodup_cons.1 h.nodup).1 (heq ▸ List.mem_map_of_mem hq)

end Unifiable

theorem redirectAll_of_notMem {pairs : List (NodeId × NodeId)} {id : NodeId}
    (h : id ∉ pairs.map Prod.snd) : redirectAll pairs id = id := by
  induction pairs with
  | nil => rfl
  | cons p pairs ih =>
    rw [List.map_cons, List.mem_cons, not_or] at h
    rw [redirectAll, List.foldl_cons, redirect_of_ne h.1]
    exact ih h.2

/-- The second of a pair goes to the first and stays there. -/
theorem redirectAll_of_mem {g : Graph} {pairs : List (NodeId × NodeId)} (h : Unifiable g pairs)
    {p : NodeId × NodeId} (hp : p ∈ pairs) : redirectAll pairs p.2 = p.1 := by
  induction pairs with
  | nil => exact absurd hp List.not_mem_nil
  | cons q pairs ih =>
    rw [redirectAll, List.foldl_cons]
    obtain rfl | hp' := List.mem_cons.1 hp
    · -- The first node of the pair is the second of no pair, so it stays.
      rw [redirect_self]
      refine redirectAll_of_notMem fun hmem => ?_
      obtain ⟨r, hr, heq⟩ := List.mem_map.1 hmem
      exact h.apart p hp r (List.mem_cons_of_mem p hr) heq.symm
    · rw [redirect_of_ne (h.snd_ne hp')]
      exact ih h.tail hp'

namespace Graph

variable {strategy : EndpointStrategy} {relation : String}

/-! ### One pair -/

/-- What merging pairs one after another has done: nodes keep what they hold,
edges of other relations have gone where their ends go, of the synonym edges
those forward are there and those backward are not, and the report has counted
the pairs and the changes of synonym edges. -/
structure Unified (relation : String) (pairs : List (NodeId × NodeId))
    (before after : Graph × SynonymReport) : Prop where
  contents : after.1.contents = before.1.contents
  edgeHas : ∀ P, Properties.Additive P → ∀ k : EdgeKey, k.label ≠ relation →
    (after.1.EdgeHas P k ↔ ∃ y : EdgeKey, y.mapEnds (redirectAll pairs) = k ∧ before.1.EdgeHas P y)
  synonym : ∀ k : EdgeKey, k.label = relation → after.1.edges.get? k =
    if k ∈ pairs.map (forward relation) then
      some ((before.1.edges.get? k).getD ⟨k, autoProperties⟩)
    else if k ∈ pairs.map (backward relation) then none
    else before.1.edges.get? k
  report : after.2 = { before.2 with
    mergedNodes := before.2.mergedNodes + pairs.length
    synonymsAdded := before.2.synonymsAdded +
      pairs.countP fun p => !before.1.hasEdge (forward relation p)
    synonymsRemoved := before.2.synonymsRemoved +
      pairs.countP fun p => before.1.hasEdge (backward relation p)
    edgesMoved := after.2.edgesMoved }

/-- The graph with the synonym edge forward and without the one backward. -/
def turnSynonym (strategy : EndpointStrategy) (relation : String) (g : Graph)
    (p : NodeId × NodeId) : Graph :=
  (if !g.hasEdge (forward relation p) then
    g.addEdge strategy (forward relation p) autoProperties
  else g).removeEdge (backward relation p)

theorem get?_edges_turnSynonym (g : Graph) (p : NodeId × NodeId) (k : EdgeKey) :
    (turnSynonym strategy relation g p).edges.get? k =
      if k = backward relation p then none
      else if k = forward relation p then some ((g.edges.get? k).getD ⟨k, autoProperties⟩)
      else g.edges.get? k := by
  rw [turnSynonym, get?_edges_removeEdge]
  congr 1
  cases hforward : g.edges.get? (forward relation p) with
  | none =>
    rw [hasEdge_eq_false_iff.2 hforward, Bool.not_false, if_pos rfl, get?_edges_addEdge]
    by_cases h : k = forward relation p
    · rw [if_pos h, if_pos h, submitted, h, hforward]
      rfl
    · rw [if_neg h, if_neg h]
  | some old =>
    rw [hasEdge_iff.2 ⟨old, hforward⟩, Bool.not_true, if_neg Bool.false_ne_true]
    by_cases h : k = forward relation p
    · rw [if_pos h, h, hforward]
      rfl
    · rw [if_neg h]

theorem contents_turnSynonym {g : Graph} {p : NodeId × NodeId} (hs : g.hasNode p.1 = true)
    (hf : g.hasNode p.2 = true) : (turnSynonym strategy relation g p).contents = g.contents := by
  rw [turnSynonym, contents_removeEdge]
  split
  · exact contents_addEdge hs hf _
  · rfl

theorem Sound.turnSynonym {g : Graph} (hg : g.Sound) (p : NodeId × NodeId) :
    (turnSynonym strategy relation g p).Sound := by
  refine Sound.removeEdge ?_ _
  split
  · exact hg.addEdge _ _
  · exact hg

/-- Merging a member turns its synonym edge and then moves what touches it. -/
theorem unifyMember_eq (state : Graph × SynonymReport) (p : NodeId × NodeId) (hne : p.1 ≠ p.2) :
    unifyMember strategy relation p.1 state p.2 =
      let moved := (turnSynonym strategy relation state.1 p).moveTouching strategy p.2 p.1 relation
      (moved.1, { state.2 with
        mergedNodes := state.2.mergedNodes + 1
        synonymsAdded := state.2.synonymsAdded +
          (!state.1.hasEdge (forward relation p)).toNat
        synonymsRemoved := state.2.synonymsRemoved +
          (state.1.hasEdge (backward relation p)).toNat
        edgesMoved := state.2.edgesMoved + moved.2 }) := by
  have hbackward : (if !state.1.hasEdge (forward relation p) then
        state.1.addEdge strategy (forward relation p) autoProperties
      else state.1).hasEdge (backward relation p) = state.1.hasEdge (backward relation p) := by
    split
    · have hne' : backward relation p ≠ forward relation p := fun h =>
        hne (forward_eq_backward.1 h.symm).1
      exact hasEdge_congr (by rw [get?_edges_addEdge, if_neg hne'])
    · rfl
  simp only [unifyMember, turnSynonym, ← hbackward]
  rfl

theorem unified_unifyMember {state : Graph × SynonymReport} {p : NodeId × NodeId}
    (hstate : state.1.Sound) (hp : Unifiable state.1 [p]) :
    Unified relation [p] state (unifyMember strategy relation p.1 state p.2) := by
  obtain ⟨hs, hf⟩ := hp.stored p (List.mem_singleton.2 rfl)
  have hne : p.1 ≠ p.2 := hp.apart p (List.mem_singleton.2 rfl) p (List.mem_singleton.2 rfl)
  have hturn : (turnSynonym strategy relation state.1 p).contents = state.1.contents :=
    contents_turnSynonym hs hf
  have htarget := (hasNode_of_contents_eq hturn p.1).trans hs
  have hsound : (turnSynonym strategy relation state.1 p).Sound := hstate.turnSynonym p
  have hmoved : Moved p.2 p.1 relation (turnSynonym strategy relation state.1 p)
      ((turnSynonym strategy relation state.1 p).moveTouching strategy p.2 p.1 relation).1 :=
    moved_moveTouching hsound hne htarget
  rw [unifyMember_eq state p hne]
  constructor
  case contents => exact hmoved.contents.trans hturn
  case edgeHas =>
    intro P hP k hk
    rw [edgeHas_moveTouching hsound hne htarget hP hk]
    -- Turning the synonym edge does not show in other relations.
    refine exists_congr fun y => and_congr_right fun hy => ?_
    have hlabel : y.label ≠ relation := fun h => hk (hy ▸ h)
    have hb : y ≠ backward relation p := fun h => hlabel (h ▸ rfl)
    have hf' : y ≠ forward relation p := fun h => hlabel (h ▸ rfl)
    rw [EdgeHas, get?_edges_turnSynonym, if_neg hb, if_neg hf']
    rfl
  case synonym =>
    intro k hk
    rw [hmoved.spared k hk, get?_edges_turnSynonym]
    simp only [List.map_cons, List.map_nil, List.mem_singleton]
    by_cases h : k = forward relation p
    · have hb : k ≠ backward relation p := fun hb => hne (forward_eq_backward.1 (h ▸ hb)).1
      rw [if_neg hb, if_pos h, if_pos h]
    · rw [if_neg h, if_neg h]
  case report =>
    have hcount : ∀ b : Bool, b.toNat = if b = true then 1 else 0 := fun b => by cases b <;> rfl
    simp only [List.length_singleton, List.countP_singleton, hcount]

/-! ### Several pairs -/

theorem Unified.refl (state : Graph × SynonymReport) : Unified relation [] state state where
  contents := rfl
  edgeHas _ _ k _ := ⟨fun h => ⟨k, rfl, h⟩, fun ⟨y, hy, h⟩ => (hy.symm.trans rfl : k = y) ▸ h⟩
  synonym _ _ := rfl
  report := rfl

/-- A pair leaves the synonym edges of later pairs as they are. -/
theorem Unified.hasEdge_eq {s s' : Graph × SynonymReport} {p : NodeId × NodeId}
    (h : Unified relation [p] s s') {k : EdgeKey} (hk : k.label = relation)
    (hf : k ≠ forward relation p) (hb : k ≠ backward relation p) :
    s'.1.hasEdge k = s.1.hasEdge k := by
  refine hasEdge_congr ?_
  rw [h.synonym k hk, if_neg (by simpa using hf), if_neg (by simpa using hb)]

theorem Unified.cons {s₁ s₂ s₃ : Graph × SynonymReport} {p : NodeId × NodeId}
    {pairs : List (NodeId × NodeId)} (hp : Unifiable s₁.1 (p :: pairs))
    (h : Unified relation [p] s₁ s₂) (h' : Unified relation pairs s₂ s₃) :
    Unified relation (p :: pairs) s₁ s₃ where
  contents := h'.contents.trans h.contents
  edgeHas P hP k hk := by
    rw [h'.edgeHas P hP k hk]
    constructor
    · rintro ⟨y, rfl, hy⟩
      obtain ⟨z, rfl, hz⟩ := (h.edgeHas P hP y hk).1 hy
      exact ⟨z, rfl, hz⟩
    · rintro ⟨z, rfl, hz⟩
      refine ⟨z.mapEnds (redirectAll [p]), rfl, (h.edgeHas P hP _ ?_).2 ⟨z, rfl, hz⟩⟩
      exact hk
  synonym k hk := by
    have happart : ∀ q ∈ p :: pairs, ∀ r ∈ p :: pairs, forward relation q ≠ backward relation r :=
      fun q hq r hr heq => hp.apart q hq r hr (forward_eq_backward.1 heq).1
    rw [h'.synonym k hk, h.synonym k hk]
    simp only [List.map_cons, List.map_nil, List.mem_cons, List.not_mem_nil, or_false]
    by_cases hf : k = forward relation p
    · -- The edge forward is there already, and no later pair takes it away.
      have hb : k ∉ pairs.map (backward relation) := fun hmem => by
        obtain ⟨q, hq, heq⟩ := List.mem_map.1 hmem
        exact happart p List.mem_cons_self q (List.mem_cons_of_mem p hq) (hf.symm.trans heq.symm)
      rw [if_pos (Or.inl hf)]
      simp only [if_pos hf, if_neg hb, Option.getD_some, ite_self]
    · by_cases hb : k = backward relation p
      · -- No later pair brings the edge backward in again.
        have hf' : k ∉ pairs.map (forward relation) := fun hmem => by
          obtain ⟨q, hq, heq⟩ := List.mem_map.1 hmem
          exact happart q (List.mem_cons_of_mem p hq) p List.mem_cons_self (heq.trans hb)
        rw [if_neg (not_or.2 ⟨hf, hf'⟩), if_pos (Or.inl hb)]
        simp only [if_neg hf, if_neg hf', if_pos hb, ite_self]
      · simp only [hf, hb, if_false, false_or]
  report := by
    -- No edge of a later pair is one of the first pair: its second node is another.
    have hf : ∀ q ∈ pairs,
        s₂.1.hasEdge (forward relation q) = s₁.1.hasEdge (forward relation q) :=
      fun q hq => h.hasEdge_eq rfl
        (fun heq => hp.snd_ne hq (congrArg Prod.snd (forward_inj.1 heq)))
        fun heq => hp.apart q (List.mem_cons_of_mem p hq) p List.mem_cons_self
          (forward_eq_backward.1 heq).1
    have hb : ∀ q ∈ pairs,
        s₂.1.hasEdge (backward relation q) = s₁.1.hasEdge (backward relation q) :=
      fun q hq => h.hasEdge_eq rfl
        (fun heq => hp.apart p List.mem_cons_self q (List.mem_cons_of_mem p hq)
          (forward_eq_backward.1 heq.symm).1)
        fun heq => hp.snd_ne hq (congrArg Prod.snd (backward_inj.1 heq))
    have hadded : pairs.countP (fun q => !s₂.1.hasEdge (forward relation q)) =
        pairs.countP fun q => !s₁.1.hasEdge (forward relation q) :=
      List.countP_congr fun q hq => by rw [hf q hq]
    have hremoved : pairs.countP (fun q => s₂.1.hasEdge (backward relation q)) =
        pairs.countP fun q => s₁.1.hasEdge (backward relation q) :=
      List.countP_congr fun q hq => by rw [hb q hq]
    rw [h'.report, h.report, hadded, hremoved]
    simp only [List.length_cons, List.length_nil, List.countP_cons, List.countP_nil,
      SynonymReport.mk.injEq, true_and, and_true]
    omega

theorem unified_foldl (pairs : List (NodeId × NodeId)) {state : Graph × SynonymReport}
    (hstate : state.1.Sound) (hp : Unifiable state.1 pairs) :
    Unified relation pairs state
      (pairs.foldl (fun s p => unifyMember strategy relation p.1 s p.2) state) := by
  induction pairs generalizing state with
  | nil => exact .refl state
  | cons p pairs ih =>
    have hstep : Unified relation [p] state (unifyMember strategy relation p.1 state p.2) :=
      unified_unifyMember hstate
        { stored := fun q hq => List.mem_singleton.1 hq ▸ hp.stored p List.mem_cons_self
          nodup := List.nodup_singleton _
          apart := fun q hq r hr => by
            rw [List.mem_singleton.1 hq, List.mem_singleton.1 hr]
            exact hp.apart p List.mem_cons_self p List.mem_cons_self }
    exact hstep.cons hp
      (ih (sound_unifyMember state p.2 hstate) (hp.tail.of_contents_eq hstep.contents))

/-! ### The pass -/

variable {g : Graph} {relations : List String} {rankProperty : String}

/-- The pairs that a pass over a graph handles. -/
def synonymPairs (g : Graph) (config : SynonymConfig) : List (NodeId × NodeId) :=
  (g.clusters [config.relation] config.rankProperty).flatMap Cluster.pairs

theorem mem_pairs {clusters : List Cluster} {p : NodeId × NodeId} :
    p ∈ clusters.flatMap Cluster.pairs ↔
      ∃ c ∈ clusters, ∃ m ∈ c.others, (c.canonical.id, m.id) = p := by
  simp only [List.mem_flatMap, Cluster.pairs, List.mem_map]

/-- The pass goes through the pairs of all clusters. -/
theorem unifySynonyms_eq (g : Graph) (config : SynonymConfig) :
    g.unifySynonyms strategy config =
      (g.synonymPairs config).foldl (fun s p => unifyMember strategy config.relation p.1 s p.2)
        (g, { clusters := (g.clusters [config.relation] config.rankProperty).length }) := by
  have hcluster : unifyCluster strategy config.relation = fun s c =>
      c.pairs.foldl (fun s p => unifyMember strategy config.relation p.1 s p.2) s := by
    funext s c
    simp only [unifyCluster, Cluster.pairs, List.foldl_map]
  rw [unifySynonyms, hcluster]
  exact (List.foldl_flatMap ..).symm

theorem Partition.unifiable {handled ids : List NodeId} {clusters : List Cluster}
    (h : Partition g relations rankProperty handled ids clusters) :
    Unifiable g (clusters.flatMap Cluster.pairs) where
  stored p hp := by
    obtain ⟨c, hc, m, hm, rfl⟩ := mem_pairs.1 hp
    have hcluster := h.cluster c hc
    exact ⟨hcluster.hasNode c.canonical_mem_ids, hcluster.hasNode (Cluster.other_mem_ids hm)⟩
  nodup := by
    have hsnd : (clusters.flatMap Cluster.pairs).map Prod.snd =
        clusters.flatMap fun c => c.others.map RankedNode.id := by
      simp only [List.map_flatMap, Cluster.pairs, List.map_map, Function.comp_def]
    rw [hsnd, List.nodup_flatMap]
    refine ⟨fun c hc => (List.nodup_cons.1 (h.cluster c hc).nodup).2, ?_⟩
    exact h.disjoint.imp fun hcd a hac had =>
      hcd a (List.mem_cons_of_mem _ hac) (List.mem_cons_of_mem _ had)
  apart p hp q hq := by
    obtain ⟨c, hc, m, -, rfl⟩ := mem_pairs.1 hp
    obtain ⟨d, hd, n, hn, rfl⟩ := mem_pairs.1 hq
    exact h.canonical_ne hc hd hn

theorem Sound.unifiable_synonymPairs (hg : g.Sound) (config : SynonymConfig) :
    Unifiable g (g.synonymPairs config) :=
  (clusters_partition hg [config.relation] config.rankProperty).unifiable

/-- **What a pass does**, told by its pairs. -/
theorem Sound.unified_unifySynonyms (hg : g.Sound) (strategy : EndpointStrategy)
    (config : SynonymConfig) : Unified config.relation (g.synonymPairs config)
      (g, { clusters := (g.clusters [config.relation] config.rankProperty).length })
      (g.unifySynonyms strategy config) := by
  rw [unifySynonyms_eq]
  exact unified_foldl _ hg (hg.unifiable_synonymPairs config)

/-- The report counts the pairs without an edge forward. -/
theorem Sound.synonymsAdded_unifySynonyms (hg : g.Sound) (strategy : EndpointStrategy)
    (config : SynonymConfig) : (g.unifySynonyms strategy config).2.synonymsAdded =
      (g.synonymPairs config).countP fun p => !g.hasEdge (forward config.relation p) := by
  rw [(hg.unified_unifySynonyms strategy config).report]
  exact Nat.zero_add _

end Graph

end PropertyGraph

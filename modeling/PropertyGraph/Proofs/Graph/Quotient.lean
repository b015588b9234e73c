/-
Merging synonyms makes a quotient of a graph's edges.

`canonicalOf` sends every node to the canonical member of its cluster, and an
edge of another relation goes where its ends go.  The synonym edges themselves
are only turned: each points from the canonical member to another, and they
connect the same nodes as before.

* **`Partition.redirectAll_eq`** — merging pair after pair sends every node to
  its canonical member;
* **`unifySynonyms_quotient`** — the edges of other relations and their values;
* **`unifySynonyms_turns`** — the synonym edges, and what they connect.
-/
import Mathlib.Data.List.Permutation
import PropertyGraph.Proofs.Graph.Synonyms

namespace PropertyGraph.Graph

variable {strategy : EndpointStrategy} {g : Graph} {relations : List String}
  {rankProperty : String}

/-! ### The other edges -/

/-- The canonical member of the cluster that a node is in; the node itself if it
is in none. -/
def canonicalOf (clusters : List Cluster) (id : NodeId) : NodeId :=
  ((clusters.find? fun c => id ∈ c.ids).map fun c => c.canonical.id).getD id

theorem canonicalOf_of_notMem {clusters : List Cluster} {id : NodeId}
    (h : ∀ c ∈ clusters, id ∉ c.ids) : canonicalOf clusters id = id := by
  have hnone : (clusters.find? fun c => id ∈ c.ids) = none :=
    List.find?_eq_none.2 fun c hc => by simpa using h c hc
  rw [canonicalOf, hnone]
  rfl

section Partition

variable {handled ids : List NodeId} {clusters : List Cluster}

theorem Partition.canonicalOf_of_mem (h : Partition g relations rankProperty handled ids clusters)
    {c : Cluster} (hc : c ∈ clusters) {id : NodeId} (hid : id ∈ c.ids) :
    canonicalOf clusters id = c.canonical.id := by
  have hfound : (clusters.find? fun c => id ∈ c.ids).isSome = true :=
    List.find?_isSome.2 ⟨c, hc, decide_eq_true hid⟩
  obtain ⟨d, hd⟩ := Option.isSome_iff_exists.1 hfound
  have hmem : id ∈ d.ids := by simpa using List.find?_some hd
  rw [canonicalOf, hd, h.eq_of_mem hc (List.mem_of_find?_eq_some hd) hid hmem]
  rfl

/-- No node goes to one that is merged into another. -/
theorem Partition.canonicalOf_ne (h : Partition g relations rankProperty handled ids clusters)
    {d : Cluster} (hd : d ∈ clusters) {m : RankedNode} (hm : m ∈ d.others) (id : NodeId) :
    canonicalOf clusters id ≠ m.id := by
  by_cases hid : ∃ c ∈ clusters, id ∈ c.ids
  · obtain ⟨c, hc, hmem⟩ := hid
    rw [h.canonicalOf_of_mem hc hmem]
    exact h.canonical_ne hc hd hm
  · rw [canonicalOf_of_notMem fun c hc hmem => hid ⟨c, hc, hmem⟩]
    rintro rfl
    exact hid ⟨d, hd, Cluster.other_mem_ids hm⟩

/-- One pair after another, every node goes to its canonical member. -/
theorem Partition.redirectAll_eq (h : Partition g relations rankProperty handled ids clusters) :
    redirectAll (clusters.flatMap Cluster.pairs) = canonicalOf clusters := by
  funext id
  by_cases hid : ∃ c ∈ clusters, id ∈ c.ids
  · -- In a cluster, the canonical member is in no pair second, another member in one.
    obtain ⟨c, hc, hmem⟩ := hid
    rw [h.canonicalOf_of_mem hc hmem]
    by_cases hcanonical : id = c.canonical.id
    · rw [hcanonical]
      refine redirectAll_of_notMem fun hsnd => ?_
      obtain ⟨p, hp, heq⟩ := List.mem_map.1 hsnd
      obtain ⟨d, hd, m, hm, rfl⟩ := mem_pairs.1 hp
      exact h.canonical_ne hc hd hm heq.symm
    · obtain ⟨m, hm, rfl⟩ := Cluster.exists_other_of_mem_ids hmem hcanonical
      exact redirectAll_of_mem h.unifiable (mem_pairs.2 ⟨c, hc, m, hm, rfl⟩)
  · rw [canonicalOf_of_notMem fun c hc hmem => hid ⟨c, hc, hmem⟩]
    refine redirectAll_of_notMem fun hsnd => hid ?_
    obtain ⟨p, hp, rfl⟩ := List.mem_map.1 hsnd
    obtain ⟨d, hd, m, hm, rfl⟩ := mem_pairs.1 hp
    exact ⟨d, hd, Cluster.other_mem_ids hm⟩

end Partition

/-- The values that an edge holds under a key; none if it is not stored. -/
def valuesAt (g : Graph) (k : EdgeKey) (key : String) : List Value :=
  ((g.edges.get? k).map fun e => e.properties.valuesAt key).getD []

theorem exists_valuesAt_iff {P : Value → Prop} {k : EdgeKey} {key : String} :
    (∃ v ∈ g.valuesAt k key, P v) ↔ g.EdgeHas (fun m => ∃ v ∈ m.valuesAt key, P v) k := by
  cases hk : g.edges.get? k <;> simp [valuesAt, EdgeHas, hk]

/-- An edge of another relation comes from one whose ends have its ends as their
canonical members. -/
theorem Sound.edgeHas_unifySynonyms_iff (hg : g.Sound) (config : SynonymConfig)
    {P : Properties → Prop} (hP : Properties.Additive P) {k : EdgeKey}
    (hk : k.label ≠ config.relation) :
    (g.unifySynonyms strategy config).1.EdgeHas P k ↔ ∃ y : EdgeKey,
      y.mapEnds (canonicalOf (g.clusters [config.relation] config.rankProperty)) = k ∧
        g.EdgeHas P y := by
  rw [← (clusters_partition hg _ _).redirectAll_eq]
  exact (hg.unified_unifySynonyms strategy config).edgeHas P hP k hk

/-- No edge of another relation touches a node that has been merged into
another. -/
theorem Sound.not_touches_of_hasEdge_unifySynonyms (hg : g.Sound) (config : SynonymConfig)
    {k : EdgeKey} (hk : k.label ≠ config.relation)
    (h : (g.unifySynonyms strategy config).1.hasEdge k = true) {c : Cluster}
    (hc : c ∈ g.clusters [config.relation] config.rankProperty) {m : RankedNode}
    (hm : m ∈ c.others) : ¬k.touches m.id = true := by
  have hpart := clusters_partition hg [config.relation] config.rankProperty
  obtain ⟨y, rfl, -⟩ := (hg.edgeHas_unifySynonyms_iff config Properties.additive_true hk).1
    (edgeHas_true.2 h)
  rw [EdgeKey.touches_iff, not_or]
  exact ⟨hpart.canonicalOf_ne hc hm y.start, hpart.canonicalOf_ne hc hm y.finish⟩

/-- **Merging synonyms is a quotient of the other edges.**  An edge of another
relation is stored afterwards exactly if one is stored before whose ends have
the ends of that edge as their canonical members; it holds the values of all
such edges, and it touches no node that has been merged into another. -/
theorem unifySynonyms_quotient (updates : List (EndpointStrategy × Update))
    (strategy : EndpointStrategy) (config : SynonymConfig)
    (hvalues : ∀ e ∈ (run updates).edges.entries, e.2.properties.WellFormed) :
    let g := run updates
    let g' := (g.unifySynonyms strategy config).1
    let clusters := g.clusters [config.relation] config.rankProperty
    ∀ k : EdgeKey, k.label ≠ config.relation →
      (g'.hasEdge k = true ↔
        ∃ y : EdgeKey, y.mapEnds (canonicalOf clusters) = k ∧ g.hasEdge y = true) ∧
      (∀ key, Value.Agree (g'.valuesAt k key)
        ((g.edges.keys.filter fun y => y.mapEnds (canonicalOf clusters) = k).flatMap
          fun y => g.valuesAt y key)) ∧
      (g'.hasEdge k = true → ∀ c ∈ clusters, ∀ m ∈ c.others, k.touches m.id = false) := by
  intro g g' clusters k hk
  have hg : g.Sound := run_sound updates
  have hstored : g'.hasEdge k = true ↔
      ∃ y : EdgeKey, y.mapEnds (canonicalOf clusters) = k ∧ g.hasEdge y = true := by
    simpa only [edgeHas_true] using hg.edgeHas_unifySynonyms_iff config Properties.additive_true hk
  refine ⟨hstored, fun key => Value.agree_of_forall_respected (fun P hP => ?_) ?_,
    fun h c hc m hm => Bool.eq_false_iff.2 ?_⟩
  · -- A condition on the values is one on the maps, and merging hands it on.
    rw [exists_valuesAt_iff, hg.edgeHas_unifySynonyms_iff config
      (Properties.additive_exists_valuesAt hP key) hk]
    simp only [← exists_valuesAt_iff, List.mem_flatMap, List.mem_filter, decide_eq_true_eq]
    constructor
    · rintro ⟨y, hy, v, hv, hPv⟩
      have hmem : y ∈ g.edges.keys := OrderedMap.contains_eq_true_iff.1
        (exists_valuesAt_iff.1 ⟨v, hv, hPv⟩).hasEdge
      exact ⟨v, ⟨y, ⟨hmem, hy⟩, hv⟩, hPv⟩
    · rintro ⟨v, ⟨y, ⟨-, hy⟩, hv⟩, hPv⟩
      exact ⟨y, hy, v, hv, hPv⟩
  · intro v hv
    obtain ⟨y, -, hy⟩ := List.mem_flatMap.1 hv
    cases he : g.edges.get? y with
    | none => simp [valuesAt, he] at hy
    | some e =>
      rw [valuesAt, he] at hy
      exact (hvalues (y, e) (OrderedMap.get?_eq_some_iff.1 he)).same_self hy
  · exact hg.not_touches_of_hasEdge_unifySynonyms config hk h hc hm

/-- Two synonyms, either of which has a value under a key of its edge to a third
node. -/
def likedTwice : List (EndpointStrategy × Update) :=
  [(.default, .addEdge ⟨.int 1, "LIKES", .int 3⟩ (Properties.set .empty "since" (.integer 5))),
    (.default, .addEdge ⟨.int 2, "LIKES", .int 3⟩ (Properties.set .empty "since" (.integer 7))),
    (.default, .addEdge ⟨.int 2, "IS_SYNONYM_OF", .int 1⟩ .empty)]

/-- The edge of the canonical member gets the values of both. -/
theorem unifySynonyms_quotient_likedTwice :
    (∀ e ∈ (run likedTwice).edges.entries, e.2.properties.WellFormed) ∧
      ((run likedTwice).unifySynonyms .default {}).1.hasEdge ⟨.int 1, "LIKES", .int 3⟩ = true ∧
      Value.Agree (((run likedTwice).unifySynonyms .default {}).1.valuesAt
        ⟨.int 1, "LIKES", .int 3⟩ "since") [.integer 5, .integer 7] := by
  have hvalues : ∀ e ∈ (run likedTwice).edges.entries, e.2.properties.WellFormed := by decide
  obtain ⟨hstored, hagree, -⟩ := unifySynonyms_quotient likedTwice .default {} hvalues
    ⟨.int 1, "LIKES", .int 3⟩ (by decide)
  refine ⟨hvalues, hstored.2 ⟨⟨.int 2, "LIKES", .int 3⟩, by cbv, by decide⟩, ?_⟩
  have hunion : (((run likedTwice).edges.keys.filter fun y => y.mapEnds (canonicalOf
      ((run likedTwice).clusters ["IS_SYNONYM_OF"] "line_id")) = ⟨.int 1, "LIKES", .int 3⟩).flatMap
        fun y => (run likedTwice).valuesAt y "since") = [.integer 5, .integer 7] := by
    cbv
  exact hunion ▸ hagree "since"

/-! ### The synonym edges -/

section Unified

variable {relation : String} {pairs : List (NodeId × NodeId)} {s s' : Graph × SynonymReport}

/-- Afterwards the edges forward are there and those backward are not. -/
theorem Unified.hasEdge_iff (h : Unified relation pairs s s') (hp : Unifiable s.1 pairs)
    {k : EdgeKey} (hk : k.label = relation) : s'.1.hasEdge k = true ↔
      (s.1.hasEdge k = true ∨ k ∈ pairs.map (forward relation)) ∧
        k ∉ pairs.map (backward relation) := by
  rw [hasEdge, ← OrderedMap.get?_isSome, h.synonym k hk]
  by_cases hf : k ∈ pairs.map (forward relation)
  · have hb : k ∉ pairs.map (backward relation) := fun hb => by
      obtain ⟨p, hp', rfl⟩ := List.mem_map.1 hf
      obtain ⟨q, hq, heq⟩ := List.mem_map.1 hb
      exact hp.apart p hp' q hq (forward_eq_backward.1 heq.symm).1
    simp [hf, hb]
  · by_cases hb : k ∈ pairs.map (backward relation)
    · simp [hf, hb]
    · simp only [hf, hb, if_false, or_false, not_false_eq_true, and_true, hasEdge,
        OrderedMap.get?_isSome]

/-- Pairs of connected nodes connect the same nodes when they are merged: an
edge that is gone has its reverse in its place. -/
theorem Unified.reaches_iff (h : Unified relation pairs s s') (hp : Unifiable s.1 pairs)
    (hreach : ∀ p ∈ pairs, s.1.Reaches [relation] p.1 p.2) {a b : NodeId} :
    s'.1.Reaches [relation] a b ↔ s.1.Reaches [relation] a b := by
  constructor
  · -- A new edge leads from a node to one that it reached before.
    refine Reaches.of_forall_adjacent fun a b hab => ?_
    have hedge : ∀ {a b}, s'.1.hasEdge ⟨a, relation, b⟩ = true → s.1.Reaches [relation] a b := by
      intro a b hab
      obtain ⟨hold | hforward, -⟩ := (h.hasEdge_iff hp rfl).1 hab
      · exact .single (adjacent_singleton.2 (.inl hold))
      · obtain ⟨p, hp', heq⟩ := List.mem_map.1 hforward
        rw [forward, EdgeKey.mk.injEq] at heq
        exact heq.1 ▸ heq.2.2 ▸ hreach p hp'
    obtain hab | hab := adjacent_singleton.1 hab
    · exact hedge hab
    · exact (hedge hab).symm
  · -- An edge that is gone led back, and the one forward is there.
    refine Reaches.of_forall_adjacent fun a b hab => ?_
    have hedge : ∀ {a b}, s.1.hasEdge ⟨a, relation, b⟩ = true →
        s'.1.Adjacent [relation] a b := by
      intro a b hab
      by_cases hbackward : (⟨a, relation, b⟩ : EdgeKey) ∈ pairs.map (backward relation)
      · obtain ⟨p, hp', heq⟩ := List.mem_map.1 hbackward
        rw [backward, EdgeKey.mk.injEq] at heq
        obtain ⟨rfl, -, rfl⟩ := heq
        refine adjacent_singleton.2 (.inr ((h.hasEdge_iff hp rfl).2 ⟨.inr ?_, fun hb => ?_⟩))
        · exact List.mem_map_of_mem hp'
        · obtain ⟨q, hq, heq⟩ := List.mem_map.1 hb
          exact hp.apart p hp' q hq (forward_eq_backward.1 heq.symm).1
      · exact adjacent_singleton.2 (.inl ((h.hasEdge_iff hp rfl).2 ⟨.inl hab, hbackward⟩))
    obtain hab | hab := adjacent_singleton.1 hab
    · exact .single (hedge hab)
    · exact .single (hedge hab).symm

end Unified

theorem Partition.reaches {handled ids : List NodeId} {clusters : List Cluster}
    (h : Partition g relations rankProperty handled ids clusters) :
    ∀ p ∈ clusters.flatMap Cluster.pairs, g.Reaches relations p.1 p.2 := by
  intro p hp
  obtain ⟨c, hc, m, hm, rfl⟩ := mem_pairs.1 hp
  exact ((h.cluster c hc).mem_iff _ c.canonical_mem_ids _).1 (Cluster.other_mem_ids hm)

theorem Sound.hasEdge_unifySynonyms_iff (hg : g.Sound) (config : SynonymConfig) {k : EdgeKey}
    (hk : k.label = config.relation) :
    (g.unifySynonyms strategy config).1.hasEdge k = true ↔
      (g.hasEdge k = true ∨ k ∈ (g.synonymPairs config).map (forward config.relation)) ∧
        k ∉ (g.synonymPairs config).map (backward config.relation) :=
  (hg.unified_unifySynonyms strategy config).hasEdge_iff (hg.unifiable_synonymPairs config) hk

theorem Sound.hasNode_unifySynonyms (hg : g.Sound) (config : SynonymConfig) (id : NodeId) :
    (g.unifySynonyms strategy config).1.hasNode id = g.hasNode id :=
  hasNode_of_contents_eq (hg.unified_unifySynonyms strategy config).contents id

theorem Sound.reaches_unifySynonyms_iff (hg : g.Sound) (config : SynonymConfig) {a b : NodeId} :
    (g.unifySynonyms strategy config).1.Reaches [config.relation] a b ↔
      g.Reaches [config.relation] a b := by
  have hpart := clusters_partition hg [config.relation] config.rankProperty
  exact (hg.unified_unifySynonyms strategy config).reaches_iff hpart.unifiable hpart.reaches

/-- The clusters keep exactly their members. -/
theorem Sound.exists_mem_clusters_unifySynonyms_iff (hg : g.Sound) (config : SynonymConfig)
    {a b : NodeId} :
    (∃ c ∈ (g.unifySynonyms strategy config).1.clusters [config.relation] config.rankProperty,
        a ∈ c.ids ∧ b ∈ c.ids) ↔
      ∃ c ∈ g.clusters [config.relation] config.rankProperty, a ∈ c.ids ∧ b ∈ c.ids := by
  rw [(hg.unifySynonyms config).exists_mem_clusters_iff, hg.exists_mem_clusters_iff,
    hg.hasNode_unifySynonyms]
  simp only [hg.reaches_unifySynonyms_iff]

end PropertyGraph.Graph

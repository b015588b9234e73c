/-
The clusters of a graph are its connected parts of two nodes or more.

`Cluster.Of` says what a cluster is: everything that one of its nodes reaches,
each node once, ranked as the graph ranks it, best first.

* **`Cluster.Of.eq_canonical`** — only one member is as good as all others;
* **`Sound.clustersOf_cons`** — one step of the walk over the nodes;
* **`Partition`** — what the walk has made of the nodes it has handled;
* **`clusters_partition`** — every cluster is one, no node is in two, and no
  node that reaches another is in none.
-/
import Mathlib.Data.List.Pairwise
import PropertyGraph.Graph.Cluster
import PropertyGraph.Proofs.Graph.Reachability

namespace PropertyGraph

/-! ### Ranking -/

namespace RankedNode

theorem rankLe_total (a b : Option Int64) : rankLe a b = true ∨ rankLe b a = true := by
  cases a <;> cases b <;> simp [rankLe]
  omega

theorem rankLe_trans {a b c : Option Int64} (hab : rankLe a b = true) (hbc : rankLe b c = true) :
    rankLe a c = true := by
  cases a <;> cases b <;> cases c <;> simp [rankLe] at *
  omega

theorem rankLe_antisymm {a b : Option Int64} (hab : rankLe a b = true) (hba : rankLe b a = true) :
    a = b := by
  cases a <;> cases b <;> simp [rankLe] at *
  exact Int64.toInt_inj.1 (Int.le_antisymm hba hab)

/-- The larger degree comes first, then the better rank, then the earlier
place. -/
theorem le_iff {a b : RankedNode} : a.le b = true ↔ b.degree < a.degree ∨
    a.degree = b.degree ∧ (a.rank ≠ b.rank ∧ rankLe a.rank b.rank = true ∨
      a.rank = b.rank ∧ a.position ≤ b.position) := by
  rw [le]
  split
  · next h => simp [h]
  · next h =>
    rw [Decidable.not_not] at h
    split
    · next hr => simp [h, hr]
    · next hr => simp_all

theorem le_total (a b : RankedNode) : (a.le b || b.le a) = true := by
  rw [Bool.or_eq_true, le_iff, le_iff]
  have hrank := rankLe_total a.rank b.rank
  grind

theorem le_trans (a b c : RankedNode) (hab : a.le b = true) (hbc : b.le c = true) :
    a.le c = true := by
  rw [le_iff] at *
  -- Two ranks that are no worse than each other are equal.
  have htrans : rankLe a.rank b.rank = true → rankLe b.rank c.rank = true →
    rankLe a.rank c.rank = true := rankLe_trans
  have hanti : rankLe a.rank b.rank = true → rankLe b.rank a.rank = true → a.rank = b.rank :=
    rankLe_antisymm
  grind

theorem le_antisymm {a b : RankedNode} (hab : a.le b = true) (hba : b.le a = true) :
    a.degree = b.degree ∧ a.rank = b.rank ∧ a.position = b.position := by
  rw [le_iff] at *
  have hanti : rankLe a.rank b.rank = true → rankLe b.rank a.rank = true → a.rank = b.rank :=
    rankLe_antisymm
  grind

end RankedNode

/-- The nodes of a cluster, best first. -/
def Cluster.ids (c : Cluster) : List NodeId := c.members.map RankedNode.id

theorem Cluster.canonical_mem_ids (c : Cluster) : c.canonical.id ∈ c.ids := List.mem_cons_self

theorem Cluster.other_mem_ids {c : Cluster} {m : RankedNode} (hm : m ∈ c.others) : m.id ∈ c.ids :=
  List.mem_cons_of_mem _ (List.mem_map_of_mem hm)

theorem Cluster.exists_other_of_mem_ids {c : Cluster} {a : NodeId} (ha : a ∈ c.ids)
    (hne : a ≠ c.canonical.id) : ∃ m ∈ c.others, m.id = a :=
  List.mem_map.1 ((List.mem_cons.1 ha).resolve_left hne)

theorem Cluster.ofList?_eq_some_iff {l : List RankedNode} {c : Cluster} :
    ofList? l = some c ↔ l.mergeSort RankedNode.le = c.members := by
  rw [ofList?]
  split
  · next h => simp [h, members]
  · next m ms h => cases c; simp [h, members]

/-- Two nodes or more make a cluster, which holds just them, best first. -/
theorem Cluster.exists_ofList? {l : List RankedNode} (hlen : 1 < l.length) :
    ∃ c, ofList? l = some c ∧ c.members.Perm l ∧ c.others ≠ [] ∧
      c.members.Pairwise fun a b => a.le b = true := by
  have hperm := List.mergeSort_perm l RankedNode.le
  have hsorted := List.pairwise_mergeSort RankedNode.le_trans RankedNode.le_total l
  rw [← hperm.length_eq] at hlen
  match hcons : l.mergeSort RankedNode.le with
  | first :: second :: rest =>
    rw [hcons] at hperm hsorted
    exact ⟨⟨first, second :: rest⟩, ofList?_eq_some_iff.2 hcons, hperm, List.cons_ne_nil _ _,
      hsorted⟩
  | [] | [_] => simp [hcons] at hlen

namespace Graph

variable {g : Graph} {relations : List String} {rankProperty : String}

theorem member?_eq_some {id : NodeId} {m : RankedNode} (h : g.member? rankProperty id = some m) :
    m.id = id ∧ g.position? id = some m.position ∧ g.hasNode id = true := by
  simp only [member?, bind, Option.bind_eq_some_iff] at h
  obtain ⟨n, hn, position, hposition, hm⟩ := h
  cases hm
  exact ⟨rfl, hposition, hasNode_iff.2 ⟨n, hn⟩⟩

theorem exists_member?_of_hasNode (rankProperty : String) {id : NodeId} (h : g.hasNode id = true) :
    ∃ m, g.member? rankProperty id = some m := by
  obtain ⟨n, hn⟩ := hasNode_iff.1 h
  obtain ⟨position, hposition⟩ := Option.isSome_iff_exists.1
    (OrderedMap.position?_isSome.trans h)
  simp [member?, hn, position?, hposition]

/-- Ranking stored nodes drops none of them. -/
theorem map_id_filterMap_member? (rankProperty : String) {ids : List NodeId}
    (h : ∀ a ∈ ids, g.hasNode a = true) :
    (ids.filterMap (g.member? rankProperty)).map RankedNode.id = ids := by
  induction ids with
  | nil => rfl
  | cons a ids ih =>
    obtain ⟨ha, hrest⟩ := List.forall_mem_cons.1 h
    obtain ⟨m, hm⟩ := exists_member?_of_hasNode rankProperty ha
    rw [List.filterMap_cons_some hm, List.map_cons, (member?_eq_some hm).1, ih hrest]

end Graph

/-! ### Clusters -/

/-- A cluster of a graph: all that one of its nodes reaches, which is more than
itself, ranked as in the graph, best first. -/
structure Cluster.Of (g : Graph) (relations : List String) (rankProperty : String)
    (c : Cluster) : Prop where
  nodup : c.ids.Nodup
  mem_iff : ∀ a ∈ c.ids, ∀ b, b ∈ c.ids ↔ g.Reaches relations a b
  member : ∀ m ∈ c.members, g.member? rankProperty m.id = some m
  others_ne_nil : c.others ≠ []
  ranked : c.members.Pairwise fun a b => a.le b = true

namespace Cluster.Of

variable {g : Graph} {relations : List String} {rankProperty : String} {c : Cluster}

theorem hasNode (hc : c.Of g relations rankProperty) {a : NodeId} (ha : a ∈ c.ids) :
    g.hasNode a = true := by
  obtain ⟨m, hm, rfl⟩ := List.mem_map.1 ha
  exact (Graph.member?_eq_some (hc.member m hm)).2.2

/-- What a node of the cluster is in the graph, it is in the cluster. -/
theorem mem_members (hc : c.Of g relations rankProperty) {a : NodeId} (ha : a ∈ c.ids)
    {m : RankedNode} (hm : g.member? rankProperty a = some m) : m ∈ c.members := by
  obtain ⟨m', hm', rfl⟩ := List.mem_map.1 ha
  rwa [← Option.some.inj ((hc.member m' hm').symm.trans hm)]

theorem canonical_le (hc : c.Of g relations rankProperty) {m : RankedNode} (hm : m ∈ c.members) :
    c.canonical.le m = true := by
  obtain rfl | hm := List.mem_cons.1 hm
  · have := RankedNode.le_total c.canonical c.canonical
    rwa [Bool.or_self] at this
  · exact List.rel_of_pairwise_cons hc.ranked hm

/-- No node is alone in its cluster. -/
theorem exists_ne (hc : c.Of g relations rankProperty) (a : NodeId) : ∃ b ∈ c.ids, a ≠ b := by
  obtain ⟨m, hm⟩ := List.exists_mem_of_ne_nil _ hc.others_ne_nil
  by_cases ha : a = c.canonical.id
  · refine ⟨m.id, Cluster.other_mem_ids hm, fun heq => ?_⟩
    exact (List.nodup_cons.1 hc.nodup).1 (ha ▸ heq ▸ List.mem_map_of_mem hm)
  · exact ⟨c.canonical.id, c.canonical_mem_ids, ha⟩

/-- A member that is as good as the canonical one is the canonical one. -/
theorem eq_canonical (hc : c.Of g relations rankProperty) {m : RankedNode} (hm : m ∈ c.members)
    (hle : m.le c.canonical = true) : m = c.canonical := by
  have hcanonical := hc.member c.canonical List.mem_cons_self
  have hposition := (RankedNode.le_antisymm hle (hc.canonical_le hm)).2.2
  have hpm := OrderedMap.getElem?_keys_of_position? (Graph.member?_eq_some (hc.member m hm)).2.1
  have hpc := OrderedMap.getElem?_keys_of_position? (Graph.member?_eq_some hcanonical).2.1
  rw [hposition, hpc, Option.some.injEq] at hpm
  have hsame := hc.member m hm
  rw [← hpm, hcanonical, Option.some.injEq] at hsame
  exact hsame.symm

end Cluster.Of

namespace Graph

variable {g : Graph} {relations : List String} {rankProperty : String}

/-- What a node reaches, if that is more than itself, makes a cluster. -/
theorem Sound.exists_cluster (hg : g.Sound) (rankProperty : String) {a : NodeId}
    (hlen : 1 < (g.connected a relations).length) :
    ∃ c, Cluster.ofList? ((g.connected a relations).filterMap (g.member? rankProperty)) = some c ∧
      c.Of g relations rankProperty ∧ ∀ b, b ∈ c.ids ↔ g.Reaches relations a b := by
  have ha : g.hasNode a = true := by
    obtain ⟨b, hb⟩ := List.exists_mem_of_length_pos (Nat.zero_lt_of_lt hlen)
    exact ((mem_connected hg).1 hb).1
  have hmem : ∀ b, b ∈ g.connected a relations ↔ g.Reaches relations a b := fun b => by
    rw [mem_connected hg, and_iff_right ha]
  -- Whatever is reached is stored, so ranking drops none of it.
  have hids := map_id_filterMap_member? rankProperty fun b hb =>
    hg.hasNode_of_reaches ha ((hmem b).1 hb)
  obtain ⟨c, hsome, hperm, hothers, hranked⟩ := Cluster.exists_ofList? (by
    rwa [← hids, List.length_map] at hlen)
  have hpart : c.ids.Perm (g.connected a relations) := hids ▸ hperm.map RankedNode.id
  have hreaches : ∀ b, b ∈ c.ids ↔ g.Reaches relations a b := fun b =>
    hpart.mem_iff.trans (hmem b)
  refine ⟨c, hsome, ?_, hreaches⟩
  constructor
  case nodup => exact hpart.nodup_iff.2 (nodup_connected hg a)
  case mem_iff =>
    intro b hb b'
    rw [hreaches] at hb ⊢
    exact ⟨hb.symm.trans, hb.trans⟩
  case member =>
    intro m hm
    obtain ⟨b, -, hb⟩ := List.mem_filterMap.1 (hperm.mem_iff.1 hm)
    rwa [(member?_eq_some hb).1]
  case others_ne_nil => exact hothers
  case ranked => exact hranked

/-- The clusters of the nodes of a list, apart from those handled: every one is
a cluster of nodes that have not been handled, no node is in two of them, and
every node of the list that reaches another is in one or has been handled. -/
structure Partition (g : Graph) (relations : List String) (rankProperty : String)
    (handled ids : List NodeId) (clusters : List Cluster) : Prop where
  cluster : ∀ c ∈ clusters, c.Of g relations rankProperty
  unhandled : ∀ c ∈ clusters, ∀ a ∈ c.ids, a ∉ handled
  disjoint : clusters.Pairwise fun c d => ∀ a ∈ c.ids, a ∉ d.ids
  covers : ∀ a ∈ ids, ∀ b, g.Reaches relations a b → a ≠ b → a ∈ handled ∨
    ∃ c ∈ clusters, a ∈ c.ids

/-- What holds all that its nodes reach still does with a whole connected part. -/
theorem Sound.closed_append_connected (hg : g.Sound) {handled : List NodeId}
    (hclosed : ∀ a ∈ handled, ∀ b, g.Reaches relations a b → b ∈ handled) (a : NodeId) :
    ∀ b ∈ handled ++ g.connected a relations, ∀ b', g.Reaches relations b b' →
      b' ∈ handled ++ g.connected a relations := by
  intro b hb b' hreach
  rw [List.mem_append] at hb ⊢
  obtain hb | hb := hb
  · exact .inl (hclosed b hb b' hreach)
  · obtain ⟨ha, hab⟩ := (mem_connected hg).1 hb
    exact .inr ((mem_connected hg).2 ⟨ha, hab.trans hreach⟩)

/-- A node to which nothing else is connected reaches only itself. -/
theorem Sound.eq_of_reaches_of_length_le (hg : g.Sound) {a b : NodeId}
    (ha : g.hasNode a = true) (hlen : (g.connected a relations).length ≤ 1)
    (hab : g.Reaches relations a b) : a = b := by
  have hself : a ∈ g.connected a relations := (mem_connected hg).2 ⟨ha, .refl⟩
  have hother : b ∈ g.connected a relations := (mem_connected hg).2 ⟨ha, hab⟩
  obtain ⟨c, hc⟩ := List.length_eq_one_iff.1
    (Nat.le_antisymm hlen (List.length_pos_of_mem hself))
  rw [hc, List.mem_singleton] at hself hother
  exact hself.trans hother.symm

/-- What the walk over the nodes makes of the next one: nothing if it has been
handled or reaches only itself, else the cluster of all that it reaches, which
is handled then. -/
theorem Sound.clustersOf_cons (hg : g.Sound) (rankProperty : String) (handled : List NodeId)
    {a : NodeId} (ha : g.hasNode a = true) (ids : List NodeId) :
    (g.clustersOf relations rankProperty handled (a :: ids) =
        g.clustersOf relations rankProperty handled ids ∧
      (a ∈ handled ∨ ∀ b, g.Reaches relations a b → a = b)) ∨
    ∃ c, g.clustersOf relations rankProperty handled (a :: ids) =
        c :: g.clustersOf relations rankProperty (handled ++ g.connected a relations) ids ∧
      a ∉ handled ∧ c.Of g relations rankProperty ∧ ∀ b, b ∈ c.ids ↔ g.Reaches relations a b := by
  rw [clustersOf]
  split
  · next hhandled => exact .inl ⟨rfl, .inl hhandled⟩
  · next hhandled =>
    dsimp only
    split
    · next hlen =>
      exact .inl ⟨rfl, .inr fun b hab => hg.eq_of_reaches_of_length_le ha hlen hab⟩
    · next hlen =>
      obtain ⟨c, hsome, hc, hids⟩ := hg.exists_cluster rankProperty (Nat.lt_of_not_le hlen)
      rw [hsome]
      exact .inr ⟨c, rfl, hhandled, hc, hids⟩

theorem clustersOf_partition (hg : g.Sound) (handled ids : List NodeId)
    (hclosed : ∀ a ∈ handled, ∀ b, g.Reaches relations a b → b ∈ handled)
    (hstored : ∀ a ∈ ids, g.hasNode a = true) :
    Partition g relations rankProperty handled ids
      (g.clustersOf relations rankProperty handled ids) := by
  induction ids generalizing handled with
  | nil =>
    exact ⟨fun c hc => absurd hc List.not_mem_nil, fun c hc => absurd hc List.not_mem_nil,
      List.Pairwise.nil, fun a ha => absurd ha List.not_mem_nil⟩
  | cons a ids ih =>
    obtain ⟨ha, hstored'⟩ := List.forall_mem_cons.1 hstored
    obtain ⟨hstep, hskip⟩ | ⟨c, hstep, hhandled, hc, hids⟩ :=
      hg.clustersOf_cons rankProperty handled ha ids
    · obtain ⟨hcluster, hunhandled, hdisjoint, hcovers⟩ := ih handled hclosed hstored'
      rw [hstep]
      refine ⟨hcluster, hunhandled, hdisjoint, fun b hb b' hreach hne => ?_⟩
      obtain rfl | hb := List.mem_cons.1 hb
      · exact .inl (hskip.resolve_right fun halone => hne (halone b' hreach))
      · exact hcovers b hb b' hreach hne
    · have hpart : ∀ b, b ∈ g.connected a relations ↔ b ∈ c.ids := fun b => by
        rw [mem_connected hg, and_iff_right ha, hids]
      obtain ⟨hcluster, hunhandled, hdisjoint, hcovers⟩ :=
        ih _ (hg.closed_append_connected hclosed a) hstored'
      rw [hstep]
      constructor
      case cluster => exact List.forall_mem_cons.2 ⟨hc, hcluster⟩
      case unhandled =>
        refine List.forall_mem_cons.2 ⟨fun b hb hb' => ?_, fun d hd b hb hb' =>
          hunhandled d hd b hb (List.mem_append_left _ hb')⟩
        exact hhandled (hclosed b hb' a ((hids b).1 hb).symm)
      case disjoint =>
        exact List.pairwise_cons.2 ⟨fun d hd b hb hb' =>
          hunhandled d hd b hb' (List.mem_append_right _ ((hpart b).2 hb)), hdisjoint⟩
      case covers =>
        intro b hb b' hreach hne
        obtain rfl | hb := List.mem_cons.1 hb
        · exact .inr ⟨c, List.mem_cons_self, (hids b).2 .refl⟩
        · obtain hb' | ⟨d, hd, hbd⟩ := hcovers b hb b' hreach hne
          · obtain hb' | hb' := List.mem_append.1 hb'
            · exact .inl hb'
            · exact .inr ⟨c, List.mem_cons_self, (hpart b).1 hb'⟩
          · exact .inr ⟨d, List.mem_cons_of_mem _ hd, hbd⟩

theorem Partition.eq_of_mem {handled ids : List NodeId} {clusters : List Cluster}
    (h : Partition g relations rankProperty handled ids clusters) {c d : Cluster}
    (hc : c ∈ clusters) (hd : d ∈ clusters) {a : NodeId} (hac : a ∈ c.ids) (had : a ∈ d.ids) :
    c = d := by
  by_contra hne
  have : Std.Symm fun c d : Cluster => ∀ a ∈ c.ids, a ∉ d.ids :=
    ⟨fun _ _ hcd a had hac => hcd a hac had⟩
  exact h.disjoint.forall hc hd hne a hac had

/-- No canonical member is another member as well. -/
theorem Partition.canonical_ne {handled ids : List NodeId} {clusters : List Cluster}
    (h : Partition g relations rankProperty handled ids clusters) {c d : Cluster}
    (hc : c ∈ clusters) (hd : d ∈ clusters) {m : RankedNode} (hm : m ∈ d.others) :
    c.canonical.id ≠ m.id := by
  intro heq
  obtain rfl := h.eq_of_mem hc hd c.canonical_mem_ids (heq ▸ Cluster.other_mem_ids hm)
  exact (List.nodup_cons.1 (h.cluster c hc).nodup).1 (heq ▸ List.mem_map_of_mem hm)

/-- Partitions that keep the same nodes together have clusters of the same nodes. -/
theorem Partition.exists_same_ids {g' : Graph} {handled ids handled' ids' : List NodeId}
    {clusters clusters' : List Cluster}
    (h : Partition g relations rankProperty handled ids clusters)
    (h' : Partition g' relations rankProperty handled' ids' clusters')
    (hsame : ∀ a b, (∃ c ∈ clusters, a ∈ c.ids ∧ b ∈ c.ids) ↔
      ∃ d ∈ clusters', a ∈ d.ids ∧ b ∈ d.ids) {c : Cluster} (hc : c ∈ clusters) :
    ∃ d ∈ clusters', ∀ a, a ∈ d.ids ↔ a ∈ c.ids := by
  have hcanonical := c.canonical_mem_ids
  obtain ⟨d, hd, hcd, -⟩ := (hsame _ _).1 ⟨c, hc, hcanonical, hcanonical⟩
  refine ⟨d, hd, fun a => ⟨fun ha => ?_, fun ha => ?_⟩⟩
  · obtain ⟨c', hc', hmem, ha'⟩ := (hsame _ _).2 ⟨d, hd, hcd, ha⟩
    rwa [h.eq_of_mem hc hc' hcanonical hmem]
  · obtain ⟨d', hd', hmem, ha'⟩ := (hsame _ _).1 ⟨c, hc, hcanonical, ha⟩
    rwa [h'.eq_of_mem hd hd' hcd hmem]

/-- **The clusters are the connected parts of more than one node.** -/
theorem clusters_partition (hg : g.Sound) (relations : List String) (rankProperty : String) :
    Partition g relations rankProperty [] g.nodes.keys (g.clusters relations rankProperty) :=
  clustersOf_partition hg [] g.nodes.keys (fun _ ha => absurd ha List.not_mem_nil)
    fun _ ha => OrderedMap.contains_eq_true_iff.2 ha

/-- Two nodes are in one cluster if one reaches the other, and reaches more than
itself. -/
theorem Sound.exists_mem_clusters_iff (hg : g.Sound) (relations : List String)
    (rankProperty : String) {a b : NodeId} :
    (∃ c ∈ g.clusters relations rankProperty, a ∈ c.ids ∧ b ∈ c.ids) ↔
      g.hasNode a = true ∧ g.Reaches relations a b ∧ ∃ x, a ≠ x ∧ g.Reaches relations a x := by
  have hpart := clusters_partition hg relations rankProperty
  constructor
  · rintro ⟨c, hc, ha, hb⟩
    have hcluster := hpart.cluster c hc
    have hreach : ∀ {x}, x ∈ c.ids → g.Reaches relations a x := fun hx =>
      (hcluster.mem_iff a ha _).1 hx
    obtain ⟨x, hx, hne⟩ := hcluster.exists_ne a
    exact ⟨hcluster.hasNode ha, hreach hb, x, hne, hreach hx⟩
  · rintro ⟨ha, hab, x, hne, hax⟩
    obtain hhandled | ⟨c, hc, hac⟩ :=
      hpart.covers a (OrderedMap.contains_eq_true_iff.1 ha) x hax hne
    · exact absurd hhandled List.not_mem_nil
    · exact ⟨c, hc, hac, ((hpart.cluster c hc).mem_iff a hac b).2 hab⟩

end Graph

end PropertyGraph

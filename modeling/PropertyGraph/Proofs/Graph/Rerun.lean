/-
Merging the synonyms of a graph a second time.

The first pass changes the degrees that rank the members of a cluster: the
canonical member loses its edges from the others, and the others keep their
edges among themselves.  So the second pass may find another canonical member,
and then turns the synonym edges over to it.

* **`unifyMember_of_settled`** — a pair for which nothing is left to do;
* **`Sound.settled_unifySynonyms`** — every pair of the first pass is such a one
  afterwards;
* **`stableOnRerun_iff`** — the second pass changes nothing exactly if the
  canonical members still rank first after the first pass.
-/
import Mathlib.Data.Fin.Tuple.Basic
import PropertyGraph.Proofs.Graph.Quotient

namespace PropertyGraph.Graph

variable {strategy : EndpointStrategy} {relation : String} {g : Graph}

/-- Nothing is left to do for a pair: its synonym edge points forward only, and
no other edge touches the second node. -/
structure Settled (relation : String) (g : Graph) (p : NodeId × NodeId) : Prop where
  hasEdge_forward : g.hasEdge (forward relation p) = true
  hasEdge_backward : g.hasEdge (backward relation p) = false
  touching_eq_nil : g.touching p.2 relation = []

theorem unifyMember_of_settled {p : NodeId × NodeId} (h : Settled relation g p)
    (report : SynonymReport) :
    unifyMember strategy relation p.1 (g, report) p.2 =
      (g, { report with mergedNodes := report.mergedNodes + 1 }) := by
  have hne : p.1 ≠ p.2 := fun heq => by
    have hsame : forward relation p = backward relation p :=
      forward_eq_backward.2 ⟨heq, heq.symm⟩
    exact Bool.false_ne_true (h.hasEdge_backward.symm.trans (hsame ▸ h.hasEdge_forward))
  have hturn : turnSynonym strategy relation g p = g := by
    rw [turnSynonym, h.hasEdge_forward, Bool.not_true, if_neg Bool.false_ne_true, removeEdge,
      h.hasEdge_backward, if_neg Bool.false_ne_true]
  simp only [unifyMember_eq _ p hne, hturn, moveTouching_of_touching_eq_nil h.touching_eq_nil,
    h.hasEdge_forward, h.hasEdge_backward]
  rfl

theorem foldl_unifyMember_of_settled (pairs : List (NodeId × NodeId))
    (h : ∀ p ∈ pairs, Settled relation g p) (report : SynonymReport) :
    pairs.foldl (fun s p => unifyMember strategy relation p.1 s p.2) (g, report) =
      (g, { report with mergedNodes := report.mergedNodes + pairs.length }) := by
  induction pairs generalizing report with
  | nil => rfl
  | cons p pairs ih =>
    rw [List.forall_mem_cons] at h
    rw [List.foldl_cons, unifyMember_of_settled h.1, ih h.2]
    simp only [List.length_cons, Nat.add_assoc, Nat.add_comm 1]

/-- A pass with nothing left to do only counts the members. -/
theorem unifySynonyms_of_settled {config : SynonymConfig}
    (h : ∀ p ∈ g.synonymPairs config, Settled config.relation g p) :
    g.unifySynonyms strategy config =
      (g, { clusters := (g.clusters [config.relation] config.rankProperty).length
            mergedNodes := (g.synonymPairs config).length }) := by
  rw [unifySynonyms_eq, foldl_unifyMember_of_settled _ h]
  simp only [Nat.zero_add]

/-- The first pass leaves nothing to do for its own pairs. -/
theorem Sound.settled_unifySynonyms (hg : g.Sound) (strategy : EndpointStrategy)
    (config : SynonymConfig) {p : NodeId × NodeId} (hp : p ∈ g.synonymPairs config) :
    Settled config.relation (g.unifySynonyms strategy config).1 p where
  hasEdge_forward := by
    refine (hg.hasEdge_unifySynonyms_iff config rfl).2 ⟨.inr (List.mem_map_of_mem hp), fun hb => ?_⟩
    obtain ⟨q, hq, heq⟩ := List.mem_map.1 hb
    exact (hg.unifiable_synonymPairs config).apart p hp q hq (forward_eq_backward.1 heq.symm).1
  hasEdge_backward := Bool.eq_false_iff.2 fun h =>
    ((hg.hasEdge_unifySynonyms_iff config rfl).1 h).2 (List.mem_map_of_mem hp)
  touching_eq_nil := by
    obtain ⟨c, hc, m, hm, rfl⟩ := mem_pairs.1 hp
    refine List.eq_nil_iff_forall_not_mem.2 fun k hk => ?_
    obtain ⟨hstored, htouches, hlabel⟩ := mem_touching.1 hk
    exact hg.not_touches_of_hasEdge_unifySynonyms config hlabel hstored hc hm htouches

/-! ### The second pass -/

/-- Merging the synonyms a second time adds, removes and moves no edge. -/
def StableOnRerun (strategy : EndpointStrategy) (g : Graph) (config : SynonymConfig) : Prop :=
  let first := g.unifySynonyms strategy config
  let second := first.1.unifySynonyms strategy config
  second.2.synonymsAdded = 0 ∧ second.2.synonymsRemoved = 0 ∧ second.2.edgesMoved = 0 ∧
    second.1.edges.keys = first.1.edges.keys

instance (strategy : EndpointStrategy) (g : Graph) (config : SynonymConfig) :
    Decidable (StableOnRerun strategy g config) :=
  inferInstanceAs (Decidable (_ ∧ _))

/-- Every canonical member still ranks first in its cluster after the first
pass. -/
def KeepsCanonical (strategy : EndpointStrategy) (g : Graph) (config : SynonymConfig) : Prop :=
  let g' := (g.unifySynonyms strategy config).1
  ∀ c ∈ g.clusters [config.relation] config.rankProperty, ∀ m ∈ c.others,
    ∀ a ∈ g'.member? config.rankProperty c.canonical.id,
      ∀ b ∈ g'.member? config.rankProperty m.id, a.le b = true

theorem mem_synonymPairs {config : SynonymConfig} {c : Cluster}
    (hc : c ∈ g.clusters [config.relation] config.rankProperty) {a : NodeId} (ha : a ∈ c.ids)
    (hne : a ≠ c.canonical.id) : (c.canonical.id, a) ∈ g.synonymPairs config :=
  List.mem_flatMap.2 ⟨c, hc, Cluster.mem_pairs_of_mem_ids ha hne⟩

/-- The pairs of the second pass are pairs of the first one exactly if every
cluster has the canonical member that it had. -/
theorem Sound.synonymPairs_subset_iff (hg : g.Sound) (config : SynonymConfig) :
    (g.unifySynonyms strategy config).1.synonymPairs config ⊆ g.synonymPairs config ↔
      ∀ c ∈ g.clusters [config.relation] config.rankProperty,
        ∀ d ∈ (g.unifySynonyms strategy config).1.clusters [config.relation] config.rankProperty,
          (∀ a, a ∈ d.ids ↔ a ∈ c.ids) → d.canonical.id = c.canonical.id := by
  have hpart := clusters_partition hg [config.relation] config.rankProperty
  have hg' : (g.unifySynonyms strategy config).1.Sound := hg.unifySynonyms config
  have hpart' := clusters_partition hg' [config.relation] config.rankProperty
  constructor
  · intro hsub c hc d hd hsame
    by_contra hne
    -- The old canonical member would be merged in both passes.
    have hmem := hsub (mem_synonymPairs hd ((hsame _).2 c.canonical_mem_ids) (Ne.symm hne))
    obtain ⟨c', hc', m, hm, heq⟩ := mem_pairs.1 hmem
    exact hpart.canonical_ne hc hc' hm (congrArg Prod.snd heq).symm
  · intro hcanonical p hp
    obtain ⟨d, hd, m, hm, rfl⟩ := mem_pairs.1 hp
    obtain ⟨c, hc, hsame⟩ := hpart'.exists_same_ids hpart
      (fun a b => hg.exists_mem_clusters_unifySynonyms_iff config) hd
    rw [hcanonical c hc d hd fun a => (hsame a).symm]
    refine mem_synonymPairs hc ((hsame _).2 ?_) ?_
    · exact Cluster.other_mem_ids hm
    · rw [← hcanonical c hc d hd fun a => (hsame a).symm]
      exact (hpart'.canonical_ne hd hd hm).symm

/-- The second pass is stable exactly if it has only pairs of the first one. -/
theorem Sound.stableOnRerun_iff_subset (hg : g.Sound) (config : SynonymConfig) :
    StableOnRerun strategy g config ↔
      (g.unifySynonyms strategy config).1.synonymPairs config ⊆ g.synonymPairs config := by
  have hg' : (g.unifySynonyms strategy config).1.Sound := hg.unifySynonyms config
  constructor
  · rintro ⟨hadded, -⟩
    have hforward : ∀ p ∈ (g.unifySynonyms strategy config).1.synonymPairs config,
        (g.unifySynonyms strategy config).1.hasEdge (forward config.relation p) = true := by
      rw [hg'.synonymsAdded_unifySynonyms, List.countP_eq_zero] at hadded
      simpa using hadded
    rw [hg.synonymPairs_subset_iff]
    intro c hc d hd hsame
    by_contra hne
    -- The pair of the new and the old canonical member has no edge forward.
    have hnew := mem_synonymPairs hd ((hsame _).2 c.canonical_mem_ids) (Ne.symm hne)
    have hold := mem_synonymPairs hc ((hsame _).1 d.canonical_mem_ids) hne
    have hnot := (hg.settled_unifySynonyms strategy config hold).hasEdge_backward
    exact Bool.false_ne_true (hnot.symm.trans (hforward _ hnew))
  · intro hsub
    rw [StableOnRerun, unifySynonyms_of_settled fun p hp =>
      hg.settled_unifySynonyms strategy config (hsub hp)]
    exact ⟨rfl, rfl, rfl, rfl⟩

/-- The canonical member of a cluster is the one that ranks first. -/
theorem Sound.keepsCanonical_iff_subset (hg : g.Sound) (config : SynonymConfig) :
    KeepsCanonical strategy g config ↔
      (g.unifySynonyms strategy config).1.synonymPairs config ⊆ g.synonymPairs config := by
  rw [hg.synonymPairs_subset_iff]
  have hg' : (g.unifySynonyms strategy config).1.Sound := hg.unifySynonyms config
  have hpart := clusters_partition hg [config.relation] config.rankProperty
  have hpart' := clusters_partition hg' [config.relation] config.rankProperty
  constructor
  · intro hkeeps c hc d hd hsame
    have hcluster := hpart'.cluster d hd
    -- The old canonical member ranks before the new one, which ranks before all.
    obtain ⟨a, ha, haid⟩ := List.mem_map.1 ((hsame c.canonical.id).2 c.canonical_mem_ids)
    by_contra hne
    obtain ⟨m, hm, hmid⟩ := Cluster.exists_other_of_mem_ids
      ((hsame d.canonical.id).1 d.canonical_mem_ids) hne
    have hle := hkeeps c hc m hm a (haid ▸ hcluster.member a ha) d.canonical
      (hmid ▸ hcluster.member d.canonical List.mem_cons_self)
    exact hne (hcluster.eq_canonical ha hle ▸ haid)
  · intro hcanonical c hc m hm a ha b hb
    obtain ⟨d, hd, hsame⟩ := hpart.exists_same_ids hpart'
      (fun a b => (hg.exists_mem_clusters_unifySynonyms_iff config).symm) hc
    have hcluster := hpart'.cluster d hd
    have hfirst := hcluster.member d.canonical List.mem_cons_self
    rw [hcanonical c hc d hd hsame] at hfirst
    rw [Option.some.inj (ha.symm.trans hfirst)]
    exact hcluster.canonical_le
      (hcluster.mem_members ((hsame m.id).2 (Cluster.other_mem_ids hm)) hb)

/-- **When merging synonyms is stable on a second run**: exactly if the changed
degrees leave every canonical member first in its cluster. -/
theorem stableOnRerun_iff (updates : List (EndpointStrategy × Update))
    (strategy : EndpointStrategy) (config : SynonymConfig) :
    StableOnRerun strategy (run updates) config ↔
      KeepsCanonical strategy (run updates) config :=
  ((run_sound updates).stableOnRerun_iff_subset config).trans
    ((run_sound updates).keepsCanonical_iff_subset config).symm

/-- A ring of three synonyms, two of them linked both ways. -/
def synonymRing : List (EndpointStrategy × Update) :=
  [(1, 2), (2, 3), (3, 2), (3, 1)].map fun p =>
    (.default, .addEdge ⟨.int p.1, "IS_SYNONYM_OF", .int p.2⟩ .empty)

/-- The first pass takes two edges from the canonical member and gives it one,
so that all members tie and the second pass prefers the one inserted first. -/
theorem not_stableOnRerun_synonymRing : ¬StableOnRerun .default (run synonymRing) {} := by
  decide_cbv

end PropertyGraph.Graph

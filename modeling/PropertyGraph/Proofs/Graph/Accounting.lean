/-
What merging synonyms reports, and what it leaves as it is.

The pass counts the synonym edges that it adds and removes while it changes the
graph.  Every step keeps a balance: the sum of all degrees and two for each
synonym edge removed make up the sum of before and two for each one added.
Moving the other edges does not show in it, wherever they fall together.

* **`Balanced`** — the balance of a graph and a report;
* **`Balanced.unifyMember`** — merging a member keeps it;
* **`unifySynonyms_accounts`** — the nodes stay as they are, the report counts
  what the graph of before lacked and had, and the sum of all degrees follows
  the report.
-/
import PropertyGraph.Proofs.Graph.Degrees
import PropertyGraph.Proofs.Graph.Synonyms

namespace PropertyGraph.Graph

variable {strategy : EndpointStrategy} {g : Graph} {relation : String} {d : Nat}

/-! ### The balance of a pass -/

/-- Moving edges keeps a graph sound and the sum of its degrees. -/
theorem keptByMoves_degreeSum (strategy : EndpointStrategy) (d : Nat) :
    KeptByMoves strategy fun g => g.Sound ∧ g.degreeSum = d := fun _ hg k newStart newFinish =>
  ⟨hg.1.moveEdge k newStart newFinish, (hg.1.degreeSum_moveEdge k newStart newFinish).trans hg.2⟩

theorem Sound.degreeSum_moveTouching (hg : g.Sound) (source target : NodeId) (relation : String) :
    (g.moveTouching strategy source target relation).1.degreeSum = g.degreeSum :=
  ((keptByMoves_degreeSum strategy g.degreeSum).moveTouching ⟨hg, rfl⟩ source target relation).2

/-- A sound graph whose degrees have the sum `d`, but for the synonym edges that
have been added and removed. -/
structure Balanced (d : Nat) (state : Graph × SynonymReport) : Prop where
  sound : state.1.Sound
  degreeSum : state.1.degreeSum + 2 * state.2.synonymsRemoved = d + 2 * state.2.synonymsAdded

/-- What is counted as added has been added, and what is counted as removed was
there to be removed. -/
theorem Balanced.unifyMember {state : Graph × SynonymReport} (h : Balanced d state)
    (canonical member : NodeId) :
    Balanced d (unifyMember strategy relation canonical state member) := by
  obtain ⟨g, report⟩ := state
  obtain ⟨hg, hbalance⟩ := h
  let added := !g.hasEdge ⟨canonical, relation, member⟩
  let g₁ := if added then g.addEdge strategy ⟨canonical, relation, member⟩ autoProperties else g
  let removed := g₁.hasEdge ⟨member, relation, canonical⟩
  let g₂ := g₁.removeEdge ⟨member, relation, canonical⟩
  obtain ⟨hg₁, hadded⟩ : g₁.Sound ∧ g₁.degreeSum = g.degreeSum + 2 * added.toNat := by
    by_cases hadd : added = true
    · have hg₁ : g₁ = g.addEdge strategy ⟨canonical, relation, member⟩ autoProperties :=
        if_pos hadd
      rw [hg₁, hadd]
      exact ⟨hg.addEdge _ _, hg.degreeSum_addEdge _ _ _⟩
    · have hg₁ : g₁ = g := if_neg hadd
      rw [hg₁, Bool.eq_false_iff.2 hadd]
      exact ⟨hg, rfl⟩
  have hremoved : g₂.degreeSum + 2 * removed.toNat = g₁.degreeSum := hg₁.degreeSum_removeEdge _
  have hg₂ : g₂.Sound := hg₁.removeEdge _
  refine ⟨sound_unifyMember _ member hg, ?_⟩
  show (g₂.moveTouching strategy member canonical relation).1.degreeSum +
      2 * (report.synonymsRemoved + removed.toNat) =
    d + 2 * (report.synonymsAdded + added.toNat)
  rw [hg₂.degreeSum_moveTouching]
  dsimp only at hbalance
  omega

theorem Balanced.foldl_unifyMember (pairs : List (NodeId × NodeId))
    {state : Graph × SynonymReport} (h : Balanced d state) :
    Balanced d (pairs.foldl (fun s p => Graph.unifyMember strategy relation p.1 s p.2) state) := by
  induction pairs generalizing state with
  | nil => exact h
  | cons p pairs ih => exact ih (h.unifyMember p.1 p.2)

theorem Sound.balanced_unifySynonyms (hg : g.Sound) (strategy : EndpointStrategy)
    (config : SynonymConfig) : Balanced g.degreeSum (g.unifySynonyms strategy config) := by
  rw [unifySynonyms_eq]
  exact Balanced.foldl_unifyMember _ ⟨hg, rfl⟩

/-! ### The account of a pass -/

theorem Sound.report_unifySynonyms (hg : g.Sound) (strategy : EndpointStrategy)
    (config : SynonymConfig) :
    let report := (g.unifySynonyms strategy config).2
    report.clusters = (g.clusters [config.relation] config.rankProperty).length ∧
    report.mergedNodes = (g.synonymPairs config).length ∧
    report.synonymsRemoved =
      (g.synonymPairs config).countP fun p => g.hasEdge (backward config.relation p) := by
  dsimp only
  rw [(hg.unified_unifySynonyms strategy config).report]
  exact ⟨rfl, Nat.zero_add _, Nat.zero_add _⟩

/-- **Merging synonyms leaves the nodes as they are and reports what it does.**
The nodes keep their order, their labels and their properties, and none is made
up.  All members of a cluster but one are merged; a synonym edge is added for
each of them that had none from the canonical member, and removed for each that
had one to it.  The sum of all degrees changes by two for each of these edges and
for no other. -/
theorem unifySynonyms_accounts (updates : List (EndpointStrategy × Update))
    (strategy : EndpointStrategy) (config : SynonymConfig) :
    let g := run updates
    let g' := (g.unifySynonyms strategy config).1
    let report := (g.unifySynonyms strategy config).2
    let clusters := g.clusters [config.relation] config.rankProperty
    let pairs := clusters.flatMap fun c => c.others.map fun m => (c.canonical.id, m.id)
    g'.contents = g.contents ∧ g'.nodeCount = g.nodeCount ∧
    report.clusters = clusters.length ∧
    report.mergedNodes = (clusters.map fun c => c.members.length - 1).sum ∧
    report.synonymsAdded = (pairs.countP fun p => !g.hasEdge ⟨p.1, config.relation, p.2⟩) ∧
    report.synonymsRemoved = (pairs.countP fun p => g.hasEdge ⟨p.2, config.relation, p.1⟩) ∧
    (g'.degreeSum : Int) - g.degreeSum = 2 * (report.synonymsAdded - report.synonymsRemoved) := by
  intro g g' report clusters pairs
  have hg : g.Sound := run_sound updates
  have hcontents : g'.contents = g.contents := (hg.unified_unifySynonyms strategy config).contents
  obtain ⟨hclusters, hmerged, hremoved⟩ := hg.report_unifySynonyms strategy config
  have hcount : g'.nodeCount = g.nodeCount := by
    have hlength := congrArg List.length hcontents
    rwa [contents, contents, List.length_map, List.length_map] at hlength
  -- A cluster has one pair less than members.
  have hpairs : pairs.length = (clusters.map fun c => c.members.length - 1).sum := by
    simp only [pairs, List.length_flatMap, List.length_map, Cluster.members, List.length_cons,
      Nat.add_sub_cancel]
  have hbalance : g'.degreeSum + 2 * report.synonymsRemoved =
      g.degreeSum + 2 * report.synonymsAdded := (hg.balanced_unifySynonyms strategy config).degreeSum
  refine ⟨hcontents, hcount, hclusters, hmerged.trans hpairs,
    hg.synonymsAdded_unifySynonyms strategy config, hremoved, ?_⟩
  omega

end PropertyGraph.Graph

/-
Merging synonyms: every cluster of a synonym relation gathers its other edges on
its best member.

The canonical member gets a synonym edge to each other member, loses those that
come from it, and takes over every edge of another label that touches it.
-/
import PropertyGraph.Graph.Cluster

namespace PropertyGraph

/-- Which relation makes synonyms, and which property ranks them. -/
structure SynonymConfig where
  relation : String := "IS_SYNONYM_OF"
  rankProperty : String := "line_id"
deriving DecidableEq

/-- What a merge has done. -/
structure SynonymReport where
  clusters : Nat := 0
  mergedNodes : Nat := 0
  synonymsAdded : Nat := 0
  synonymsRemoved : Nat := 0
  edgesMoved : Nat := 0
deriving DecidableEq, Repr

/-- The JSON form. -/
def SynonymReport.toJson (r : SynonymReport) : Json :=
  .object [("clusters", .nat r.clusters), ("merged_nodes", .nat r.mergedNodes),
    ("synonym_edges_added", .nat r.synonymsAdded),
    ("synonym_edges_removed", .nat r.synonymsRemoved),
    ("edges_transferred", .nat r.edgesMoved)]

namespace Graph

variable (strategy : EndpointStrategy)

/-- Moves the end of an edge from one node to another, if it lies there, and
counts the move. -/
def moveFinish (source target : NodeId) (state : Graph × Nat) (k : EdgeKey) : Graph × Nat :=
  if k.finish = source then
    let (g, moved) := state.1.moveEdge strategy k none (some target)
    (g, state.2 + moved.toNat)
  else state

/-- Moves the ends of an edge from one node to another, start first, and counts
the moves. -/
def moveEnds (source target : NodeId) (state : Graph × Nat) (k : EdgeKey) : Graph × Nat :=
  if k.start = source then
    let (g, moved) := state.1.moveEdge strategy k (some target) none
    if moved then moveFinish strategy source target (g, state.2 + 1) { k with start := target }
    else state
  else moveFinish strategy source target state k

/-- Moves every edge that touches a node and is not of a relation to another
node, and counts the moves. -/
def moveTouching (g : Graph) (source target : NodeId) (relation : String) : Graph × Nat :=
  (g.touching source relation).foldl (moveEnds strategy source target) (g, 0)

/-- Merges one member of a cluster into the canonical one. -/
def unifyMember (relation : String) (canonical : NodeId) (state : Graph × SynonymReport)
    (member : NodeId) : Graph × SynonymReport :=
  let (g, report) := state
  let forward : EdgeKey := ⟨canonical, relation, member⟩
  let backward : EdgeKey := ⟨member, relation, canonical⟩
  let added := !g.hasEdge forward
  let g₁ := if added then g.addEdge strategy forward autoProperties else g
  let removed := g₁.hasEdge backward
  let (g₂, transferred) := (g₁.removeEdge backward).moveTouching strategy member canonical relation
  (g₂, { report with
    mergedNodes := report.mergedNodes + 1
    synonymsAdded := report.synonymsAdded + added.toNat
    synonymsRemoved := report.synonymsRemoved + removed.toNat
    edgesMoved := report.edgesMoved + transferred })

/-- Merges all members of a cluster into its canonical one. -/
def unifyCluster (relation : String) (state : Graph × SynonymReport) (c : Cluster) :
    Graph × SynonymReport :=
  (c.others.map RankedNode.id).foldl (unifyMember strategy relation c.canonical.id) state

/-- Merges the synonyms of a graph, cluster by cluster. -/
def unifySynonyms (g : Graph) (config : SynonymConfig) : Graph × SynonymReport :=
  let clusters := g.clusters [config.relation] config.rankProperty
  clusters.foldl (unifyCluster strategy config.relation) (g, { clusters := clusters.length })

end Graph

end PropertyGraph

/-
Clusters: the connected parts of a graph with more than one node, their members
ranked.

The member with the most counted edges comes first, among equals the one with
the largest integer under the rank property, then the one inserted first.
-/
import PropertyGraph.Graph.Connectivity

namespace PropertyGraph

/-- A node with what ranks it in its cluster. -/
structure RankedNode where
  id : NodeId
  degree : Nat
  rank : Option Int64
  position : Nat
deriving DecidableEq, Inhabited

/-- A cluster: its best member and the others, best first. -/
structure Cluster where
  canonical : RankedNode
  others : List RankedNode
deriving DecidableEq

namespace RankedNode

/-- Whether a rank is no worse than another; no rank is the worst. -/
def rankLe : Option Int64 → Option Int64 → Bool
  | _, none => true
  | none, some _ => false
  | some m, some n => n.toInt ≤ m.toInt

/-- Whether a member may stand before another. -/
def le (a b : RankedNode) : Bool :=
  if a.degree ≠ b.degree then b.degree < a.degree
  else if a.rank ≠ b.rank then rankLe a.rank b.rank
  else a.position ≤ b.position

end RankedNode

namespace Cluster

/-- All members, best first. -/
def members (c : Cluster) : List RankedNode := c.canonical :: c.others

/-- The cluster of a list of members, unless it is empty. -/
def ofList? (l : List RankedNode) : Option Cluster :=
  match l.mergeSort RankedNode.le with
  | [] => none
  | m :: ms => some ⟨m, ms⟩

end Cluster

/-- The larger of two optional integers. -/
def maxInteger (a : Option Int64) (b : Int64) : Option Int64 :=
  match a with
  | some a => some (if a.toInt < b.toInt then b else a)
  | none => some b

namespace Graph

/-- The largest integer among the values of a property. -/
def rankOf (p : Property) : Option Int64 :=
  (p.values.filterMap Value.asInteger?).foldl maxInteger none

/-- A stored node as a member of a cluster. -/
def member? (g : Graph) (rankProperty : String) (id : NodeId) : Option RankedNode := do
  let node ← g.node? id
  let position ← g.position? id
  return { id, degree := node.degree, rank := (node.properties.get? rankProperty).bind rankOf
           position }

/-- The clusters that the nodes of a list belong to, apart from those already
handled. -/
def clustersOf (g : Graph) (relations : List String) (rankProperty : String) :
    List NodeId → List NodeId → List Cluster
  | _, [] => []
  | handled, id :: ids =>
    if id ∈ handled then g.clustersOf relations rankProperty handled ids
    else
      let part := g.connected id relations
      if part.length ≤ 1 then g.clustersOf relations rankProperty handled ids
      else
        (Cluster.ofList? (part.filterMap (g.member? rankProperty))).toList ++
          g.clustersOf relations rankProperty (handled ++ part) ids

/-- The clusters of a graph, by their first inserted members. -/
def clusters (g : Graph) (relations : List String) (rankProperty : String) : List Cluster :=
  g.clustersOf relations rankProperty [] g.nodes.keys

end Graph

end PropertyGraph

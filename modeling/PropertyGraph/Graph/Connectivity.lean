/-
Which nodes are connected through edges of chosen relations.

The search goes out from a node ring by ring: `Graph.rings` adds, as often as it
is told, the neighbours that an edge of a chosen relation links to the last
ring.  A graph with `n` nodes has no more than `n` rings, so `Graph.connected`
finds all of them.
-/
import PropertyGraph.Graph.Basic

namespace PropertyGraph.Graph

/-- Whether an edge of that relation runs between two nodes, in either
direction. -/
def isLinked (g : Graph) (a : NodeId) (relation : String) (b : NodeId) : Bool :=
  g.hasEdge ⟨a, relation, b⟩ || g.hasEdge ⟨b, relation, a⟩

/-- The neighbours of a node that an edge of a chosen relation links to it. -/
def linkedNeighbours (g : Graph) (relations : List String) (id : NodeId) : List NodeId :=
  match g.node? id with
  | some n => n.neighbours.filter fun other => relations.any fun r => g.isLinked id r other
  | none => []

/-- The nodes linked to the last ring that have not been found before, appended
to those found. -/
def extend (g : Graph) (relations : List String) (found ring : List NodeId) : List NodeId :=
  appendNew found (ring.flatMap (g.linkedNeighbours relations))

/-- The nodes found, and as many rings more around the last one. -/
def rings (g : Graph) (relations : List String) : Nat → List NodeId → List NodeId → List NodeId
  | 0, found, _ => found
  | n + 1, found, ring =>
    let more := g.extend relations found ring
    if more.length = found.length then found
    else g.rings relations n more (more.drop found.length)

/-- The nodes that a path of edges of chosen relations, each passed in either
direction, connects to a stored node, itself among them. -/
def connected (g : Graph) (id : NodeId) (relations : List String) : List NodeId :=
  if g.hasNode id then g.rings relations g.nodeCount [id] [id] else []

end PropertyGraph.Graph

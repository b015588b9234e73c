/-
What a graph stores: nodes and edges, each with the name that it bears.

A node has distinct labels, properties, and two adjacency counters: how many
times an edge has come in from, or gone out to, each neighbour.  A counter that
falls to zero is dropped, so the keys of the counters are the neighbours.

* **`count_increment`**, **`count_decrement`** — the counts after each step.
-/
import PropertyGraph.FirstCome
import PropertyGraph.Graph.Id
import PropertyGraph.Property.Map

namespace PropertyGraph

/-- How often each neighbour has been counted. -/
abbrev Counter := OrderedMap NodeId Nat

namespace Counter

/-- The count of a neighbour. -/
def count (c : Counter) (id : NodeId) : Nat := (c.get? id).getD 0

/-- One more for a neighbour. -/
def increment (c : Counter) (id : NodeId) : Counter := c.insert id (c.count id + 1)

/-- One less for a neighbour that is counted. -/
def decrement (c : Counter) (id : NodeId) : Counter :=
  if c.count id ≤ 1 then c.erase id else c.insert id (c.count id - 1)

/-- The sum of all counts. -/
def total (c : Counter) : Nat := c.values.foldr (· + ·) 0

theorem count_increment (c : Counter) (id other : NodeId) :
    (c.increment id).count other = c.count other + if other = id then 1 else 0 := by
  rw [count, increment, OrderedMap.get?_insert]
  by_cases h : other = id
  · simp [h]
  · simp [h, count]

theorem count_decrement (c : Counter) (id other : NodeId) :
    (c.decrement id).count other = c.count other - if other = id then 1 else 0 := by
  rw [decrement]
  split
  · next hc =>
    rw [count, OrderedMap.get?_erase]
    by_cases h : other = id
    · subst h
      simp
      omega
    · simp [h, count]
  · rw [count, OrderedMap.get?_insert]
    by_cases h : other = id
    · simp [h]
    · simp [h, count]

end Counter

/-- A node: its name, its content and its adjacency. -/
structure Node where
  id : NodeId
  labels : List String
  properties : Properties
  incoming : Counter := .empty
  outgoing : Counter := .empty
deriving DecidableEq, Inhabited

namespace Node

/-- A node without neighbours; repeated labels count once. -/
def create (id : NodeId) (labels : List String) (properties : Properties) : Node :=
  { id, labels := appendNew [] labels, properties }

/-- The node with labels and properties merged in. -/
def update (n : Node) (labels : List String) (properties : Properties) : Node :=
  { n with
    labels := appendNew n.labels labels
    properties := n.properties.merge properties }

/-- The node after an edge has come in. -/
def countIn (n : Node) (id : NodeId) : Node := { n with incoming := n.incoming.increment id }

/-- The node after an edge has gone out. -/
def countOut (n : Node) (id : NodeId) : Node := { n with outgoing := n.outgoing.increment id }

/-- The node with one incoming edge less. -/
def uncountIn (n : Node) (id : NodeId) : Node := { n with incoming := n.incoming.decrement id }

/-- The node with one outgoing edge less. -/
def uncountOut (n : Node) (id : NodeId) : Node := { n with outgoing := n.outgoing.decrement id }

/-- How many edges have come in. -/
def inDegree (n : Node) : Nat := n.incoming.total

/-- How many edges have gone out. -/
def outDegree (n : Node) : Nat := n.outgoing.total

/-- How many edges have come in or gone out. -/
def degree (n : Node) : Nat := n.inDegree + n.outDegree

/-- The neighbours, each once: those that edges come in from, then the others. -/
def neighbours (n : Node) : List NodeId :=
  n.incoming.keys ++ n.outgoing.keys.filter fun id => !n.incoming.contains id

end Node

/-- An edge: its name and its content. -/
structure Edge where
  key : EdgeKey
  properties : Properties
deriving DecidableEq, Inhabited

/-- The edge with properties merged in. -/
def Edge.update (e : Edge) (properties : Properties) : Edge :=
  { e with properties := e.properties.merge properties }

end PropertyGraph

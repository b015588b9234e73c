/-
The property graph and its updates.

A graph is two maps in insertion order: nodes by their names, edges by their
triples.  Updates merge: adding what is there already folds the new
content into the old.  An edge whose ends are missing gets them from the graph's
endpoint strategy, so every edge has both its ends.
-/
import PropertyGraph.Graph.Node

namespace PropertyGraph

/-- The content of the two ends of an edge, as far as the edge tells. -/
structure Endpoints where
  startLabels : List String
  finishLabels : List String
  startProperties : Properties
  finishProperties : Properties

/-- What the two ends of an edge are like, told from its triple and its
properties. -/
abbrev EndpointStrategy := EdgeKey → Properties → Endpoints

/-- The property that marks what the graph has made up. -/
def autoKey : String := "auto"

/-- The properties of what the graph has made up. -/
def autoProperties : Properties := Properties.set .empty autoKey (.boolean true)

/-- The strategy that tells nothing: no labels, and the mark. -/
def EndpointStrategy.default : EndpointStrategy := fun _ _ =>
  ⟨[], [], autoProperties, autoProperties⟩

/-- Nodes and edges in insertion order. -/
structure Graph where
  nodes : OrderedMap NodeId Node := .empty
  edges : OrderedMap EdgeKey Edge := .empty
deriving DecidableEq, Inhabited

namespace Graph

/-- The graph without nodes. -/
def empty : Graph := {}

/-! ### Reading -/

/-- The node of a name. -/
def node? (g : Graph) (id : NodeId) : Option Node := g.nodes.get? id

/-- The edge of a name. -/
def edge? (g : Graph) (k : EdgeKey) : Option Edge := g.edges.get? k

/-- Whether a node is stored. -/
def hasNode (g : Graph) (id : NodeId) : Bool := g.nodes.contains id

/-- Whether an edge is stored. -/
def hasEdge (g : Graph) (k : EdgeKey) : Bool := g.edges.contains k

/-- The number of nodes. -/
def nodeCount (g : Graph) : Nat := g.nodes.size

/-- The number of edges. -/
def edgeCount (g : Graph) : Nat := g.edges.size

/-- The number of nodes inserted before a node. -/
def position? (g : Graph) (id : NodeId) : Option Nat := g.nodes.position? id

/-- The edges that touch a node and have another label than `except`. -/
def touching (g : Graph) (id : NodeId) (except : String) : List EdgeKey :=
  g.edges.keys.filter fun k => k.touches id && k.label ≠ except

/-- The sizes of a graph in words. -/
def summary (g : Graph) : String :=
  "PropertyGraph \x7b nodes: " ++ toString g.nodeCount ++ ", edges: " ++ toString g.edgeCount ++
    " \x7d"

/-! ### Updates -/

/-- Adds a node, or merges labels and properties into the one that is there. -/
def addNode (g : Graph) (id : NodeId) (labels : List String) (properties : Properties) : Graph :=
  { g with
    nodes := match g.nodes.get? id with
      | some n => g.nodes.insert id (n.update labels properties)
      | none => g.nodes.insert id (.create id labels properties) }

/-- Adds the ends that an edge lacks, from what the strategy tells of them.  A
missing node that is both ends is told of as a start. -/
def addEndpoints (strategy : EndpointStrategy) (g : Graph) (k : EdgeKey) (properties : Properties) :
    Graph :=
  let told := strategy k properties
  let g₁ := if g.hasNode k.start then g
    else g.addNode k.start told.startLabels told.startProperties
  if g₁.hasNode k.finish then g₁
  else g₁.addNode k.finish told.finishLabels told.finishProperties

/-- Counts an edge at both its ends. -/
def countEdge (g : Graph) (k : EdgeKey) : Graph :=
  { g with
    nodes := (g.nodes.modify k.start (Node.countOut · k.finish)).modify k.finish
      (Node.countIn · k.start) }

/-- Takes an edge out of the counts at both its ends. -/
def uncountEdge (g : Graph) (k : EdgeKey) : Graph :=
  { g with
    nodes := (g.nodes.modify k.start (Node.uncountOut · k.finish)).modify k.finish
      (Node.uncountIn · k.start) }

/-- Adds an edge and the ends it lacks, or merges properties into the one that
is there.  Both ends count the edge once more in either case. -/
def addEdge (strategy : EndpointStrategy) (g : Graph) (k : EdgeKey) (properties : Properties) :
    Graph :=
  match g.edges.get? k with
  | some old => countEdge { g with edges := g.edges.insert k (old.update properties) } k
  | none =>
    let g₁ := addEndpoints strategy g k properties
    countEdge { g₁ with edges := g₁.edges.insert k ⟨k, properties⟩ } k

/-- Adds an edge, and tells whether it is new. -/
def putEdge (strategy : EndpointStrategy) (g : Graph) (k : EdgeKey) (properties : Properties) :
    Graph × Bool :=
  (g.addEdge strategy k properties, (g.edges.get? k).isNone)

/-- Removes an edge that is stored; both ends count one less. -/
def removeEdge (g : Graph) (k : EdgeKey) : Graph :=
  if g.hasEdge k then uncountEdge { g with edges := g.edges.erase k } k else g

/-- Removes an edge, and tells whether there was one to remove. -/
def takeEdge (g : Graph) (k : EdgeKey) : Graph × Bool :=
  (g.removeEdge k, (g.edges.get? k).isSome)

/-- Where an edge goes when it is moved to new ends: a new start that is stored
comes first, then a new end that is stored; otherwise nowhere. -/
def moveTarget? (g : Graph) (k : EdgeKey) (newStart newFinish : Option NodeId) :
    Option EdgeKey :=
  match newStart.filter g.hasNode, newFinish.filter g.hasNode with
  | some id, _ => some { k with start := id }
  | none, some id => some { k with finish := id }
  | none, none => none

/-- Moves one end of a stored edge.  At its target the edge merges into the one
that is there.  The answer tells whether the edge was moved. -/
def moveEdge (strategy : EndpointStrategy) (g : Graph) (k : EdgeKey)
    (newStart newFinish : Option NodeId) : Graph × Bool :=
  match g.edges.get? k, g.moveTarget? k newStart newFinish with
  | some edge, some target => (addEdge strategy (g.removeEdge k) target edge.properties, true)
  | _, _ => (g, false)

end Graph

end PropertyGraph

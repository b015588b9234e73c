/-
Compiling a pattern graph into a match query.

Listings of one node are merged into one `Constraint`, without the values that
the configuration declares to be no condition.  Every edge becomes a path
between its ends, and every node of no edge a fragment of its own.
-/
import PropertyGraph.Cypher.PatternGraph
import PropertyGraph.Cypher.Query

namespace PropertyGraph

/-- Values of a property that stand for no condition. -/
structure DontCare where
  property : String
  values : List Value
deriving DecidableEq

/-- How pattern graphs are compiled. -/
structure MatchConfig where
  /-- Whether properties become conditions behind the pattern. -/
  useWhere : Bool := false
  /-- Whether labels and types are matched. -/
  useLabels : Bool := true
  /-- Whether directions are matched. -/
  useDirections : Bool := true
  nodePrefix : String := "n"
  relationPrefix : String := "r"
  /-- What to return; nothing chosen is everything. -/
  returns : List String := []
  dontCare : List DontCare :=
    [⟨"lemma", [.text "?", .text ""]⟩, ⟨"query", [.boolean true, .boolean false]⟩]
deriving DecidableEq

/-- Why a pattern graph cannot be compiled. -/
inductive MatchError where
  /-- An edge names a node that is not listed. -/
  | danglingEdge (edge : EdgeKey) (missing : NodeId)
  /-- There is no node to match. -/
  | emptyPattern
deriving DecidableEq

/-- The error in words. -/
def MatchError.message : MatchError → String
  | danglingEdge edge missing =>
    "Edge " ++ edge.display ++ " references node " ++ missing.display ++
      ", which is not in the node set"
  | emptyPattern => "Nothing to match: the graph has no nodes"

namespace Cypher

/-- What a node is matched by. -/
structure Constraint where
  labels : List String
  properties : Properties
deriving DecidableEq

variable (config : MatchConfig)

/-- Whether a property is a single value that stands for no condition. -/
def isDontCare (key : String) (p : Property) : Bool :=
  p.single?.any fun v =>
    config.dontCare.any fun rule => rule.property = key && v.isIn rule.values

/-- The properties that are conditions. -/
def conditional (m : Properties) : Properties :=
  m.keys.foldl (fun kept key =>
    if (m.get? key).any (isDontCare config key) then kept.erase key else kept) m

/-- The constraints with one listing of a node merged in. -/
def addListing (m : OrderedMap NodeId Constraint) (n : PatternNode) :
    OrderedMap NodeId Constraint :=
  let properties := conditional config n.properties
  match m.get? n.id with
  | some c => m.insert n.id ⟨appendNew c.labels n.distinctLabels, c.properties.merge properties⟩
  | none => m.insert n.id ⟨n.distinctLabels, properties⟩

/-- The constraints of the listed nodes, first listed first. -/
def constraints (nodes : List PatternNode) : OrderedMap NodeId Constraint :=
  nodes.foldl (addListing config) .empty

/-- The name if it is not taken, else the first of `name_2`, `name_3`, … that is
not.  Among as many names as are taken, one is free, as the plain name takes one
of them. -/
def freshName (taken : List String) (name : String) : String :=
  if name ∈ taken then
    (((List.range taken.length).map fun i => name ++ "_" ++ toString (i + 2)).find?
      fun candidate => candidate ∉ taken).getD name
  else name

/-- The variables of nodes, behind those assigned before. -/
def assignFrom (assigned : List (NodeId × String)) : List NodeId → List (NodeId × String)
  | [] => assigned
  | id :: ids =>
    let name := freshName (assigned.map Prod.snd) (config.nodePrefix ++ id.display)
    assignFrom (assigned ++ [(id, name)]) ids

/-- A variable for each node, all different. -/
def assignVariables (ids : List NodeId) : List (NodeId × String) := assignFrom config [] ids

/-- The variable of a node. -/
def variableOf (assigned : List (NodeId × String)) (id : NodeId) : String :=
  ((assigned.find? fun e => e.1 = id).map Prod.snd).getD ""

/-- The pattern of a node. -/
def nodePattern (name : String) (c : Constraint) : NodePattern where
  name := name
  labels := if config.useLabels then c.labels else []
  properties := if config.useWhere then [] else c.properties.entries

/-- The pattern of the edge with a number, counted from one. -/
def relationPattern (number : Nat) (e : PatternEdge) : RelationPattern where
  name := config.relationPrefix ++ toString number
  type := if config.useLabels then some e.key.label else none
  directed := config.useDirections && !e.isUndirected

/-- The patterns of the nodes. -/
def nodePatterns (m : OrderedMap NodeId Constraint) : OrderedMap NodeId NodePattern :=
  let assigned := assignVariables config m.keys
  m.mapValues fun id c => nodePattern config (variableOf assigned id) c

/-- The pattern of an end of an edge, if that node is listed. -/
def endPattern (patterns : OrderedMap NodeId NodePattern) (edge : EdgeKey) (id : NodeId) :
    Except MatchError NodePattern :=
  match patterns.get? id with
  | some p => .ok p
  | none => .error (.danglingEdge edge id)

/-- The paths of edges, the first of which has a number. -/
def paths (patterns : OrderedMap NodeId NodePattern) :
    Nat → List PatternEdge → Except MatchError (List Fragment)
  | _, [] => .ok []
  | number, e :: es => do
    let source ← endPattern patterns e.key e.key.start
    let target ← endPattern patterns e.key e.key.finish
    let rest ← paths patterns (number + 1) es
    return .path source (relationPattern config number e) target :: rest

/-- The fragments of the nodes that no edge names. -/
def loneNodes (patterns : OrderedMap NodeId NodePattern) (edges : List PatternEdge) :
    List Fragment :=
  (patterns.entries.filter fun p => !edges.any fun e => e.key.touches p.1).map fun p =>
    .node p.2

/-- The conditions on the nodes. -/
def conditionsOf (m : OrderedMap NodeId Constraint) : List Condition :=
  let assigned := assignVariables config m.keys
  m.entries.flatMap fun e =>
    e.2.properties.entries.map fun p => ⟨variableOf assigned e.1, p.1, p.2⟩

/-- The query that matches a pattern graph. -/
def compile (p : PatternGraph) : Except MatchError Query := do
  let m := constraints config p.nodes
  if m.isEmpty then throw .emptyPattern
  let patterns := nodePatterns config m
  let edges ← paths config patterns 1 p.edges
  return {
    fragments := edges ++ loneNodes patterns p.edges
    conditions := if config.useWhere then conditionsOf config m else []
    returns := config.returns }

/-- The query that matches what a graph stores. -/
def compileStored (g : Graph) : Except MatchError Query := compile config (.ofGraph g)

end Cypher

end PropertyGraph

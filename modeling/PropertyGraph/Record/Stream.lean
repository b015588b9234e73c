/-
Streams of records: a graph read from lines, and written as lines.

Reading stops at the first line that is neither blank nor a record; what came
before it stays in the graph.  Writing gives the nodes, then the edges, each in
insertion order.
-/
import PropertyGraph.Record.Basic

namespace PropertyGraph

/-- What reading a stream has seen: records, nodes, edges, and edges that were
there already. -/
structure ReadSummary where
  lines : Nat := 0
  nodes : Nat := 0
  edges : Nat := 0
  mergedEdges : Nat := 0
deriving DecidableEq, Repr

/-- The JSON form. -/
def ReadSummary.toJson (s : ReadSummary) : Json :=
  .object [("lines", .nat s.lines), ("nodes", .nat s.nodes), ("edges", .nat s.edges),
    ("merged_edges", .nat s.mergedEdges)]

/-- A line that is neither blank nor a record, counted from one. -/
structure MalformedLine where
  line : Nat
deriving DecidableEq, Repr

namespace Graph

variable (strategy : EndpointStrategy)

/-- The graph with a record added. -/
def addRecord (g : Graph) : Record → Graph
  | .node id labels properties => g.addNode id labels (Properties.ofMembers properties)
  | .edge k properties => g.addEdge strategy k (Properties.ofMembers properties)

/-- The summary with a record counted that is about to be added. -/
def countRecord (g : Graph) (s : ReadSummary) : Record → ReadSummary
  | .node .. => { s with lines := s.lines + 1, nodes := s.nodes + 1 }
  | .edge k _ =>
    { s with
      lines := s.lines + 1
      edges := s.edges + 1
      mergedEdges := s.mergedEdges + (g.hasEdge k).toNat }

/-- Reads lines, the first of which has a number, into a graph. -/
def readLines (g : Graph) (s : ReadSummary) :
    Nat → List String → Graph × Except MalformedLine ReadSummary
  | _, [] => (g, .ok s)
  | number, line :: lines =>
    if line.toList.all Text.isBlank then readLines g s (number + 1) lines
    else
      match Record.parse? line with
      | some r => readLines (g.addRecord strategy r) (g.countRecord s r) (number + 1) lines
      | none => (g, .error ⟨number⟩)

/-- The lines of a text.  What follows the last line end is a line too, and a
carriage return before a line end is a blank of its line. -/
def textLines (text : String) : List String := (text.toList.splitOn '\n').map String.ofList

/-- Reads a text of records into a graph. -/
def readText (g : Graph) (text : String) : Graph × Except MalformedLine ReadSummary :=
  g.readLines strategy {} 1 (textLines text)

end Graph

/-- The records of a graph. -/
def Graph.records (g : Graph) : List Record :=
  g.nodes.values.map Record.ofNode ++ g.edges.values.map Record.ofEdge

/-- The records of a graph with line ends between them. -/
def Graph.toLines (g : Graph) : String := "\n".intercalate (g.records.map Record.line)

/-- Writes a record with a line end, and counts it. -/
def Record.write (state : String × Nat) (r : Record) : String × Nat :=
  (state.1 ++ r.line ++ "\n", state.2 + 1)

/-- Writes the records of a graph with a line end after each, and counts
them. -/
def Graph.writeLines (g : Graph) : String × Nat := g.records.foldl Record.write ("", 0)

/-- The records of a graph with a line end after each. -/
def Graph.toClosedLines (g : Graph) : String := g.writeLines.1

/-- A graph read from a text of records. -/
def Graph.ofLines (text : String) : Except MalformedLine Graph :=
  match Graph.empty.readText .default text with
  | (g, .ok _) => .ok g
  | (_, .error e) => .error e

end PropertyGraph

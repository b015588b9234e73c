/-
Building a graph from a file of records, and writing it out again.

The order of effects is fixed: the records are read as a whole, then the merge
runs, then the files are written, records first.  A step that fails leaves what
was written before it.
-/
import PropertyGraph.Config.Basic
import PropertyGraph.Record.Stream
import PropertyGraph.Storage.Basic
import PropertyGraph.Table.Basic

namespace PropertyGraph

/-- Whether synonyms are merged, and what is written where. -/
structure BuildPlan where
  input : String
  merge : Bool := false
  /-- The file for the records. -/
  records : Option String := none
  /-- The folder for the tables. -/
  tables : Option String := none
  /-- Whether there is a table for each set of keys. -/
  partitioned : Bool := false
deriving DecidableEq

/-- What a build has done. -/
structure BuildSummary where
  reading : ReadSummary
  synonyms : Option SynonymReport
  nodes : Nat
  edges : Nat
  /-- The files written, in order. -/
  files : List String
deriving DecidableEq

/-- Why a build stops. -/
inductive BuildError where
  | unreadable (path : String)
  | malformed (e : MalformedLine)
  | unwritable (path : String)
deriving DecidableEq

/-- The JSON form. -/
def BuildSummary.toJson (r : BuildSummary) : Json :=
  .object ([("ingest", r.reading.toJson)] ++ (r.synonyms.map fun m => ("merge", m.toJson)).toList ++
    [("nodes", .nat r.nodes), ("edges", .nat r.edges), ("files", .texts r.files)])

/-- The names and contents of the table files of a graph. -/
def Graph.tableFiles (g : Graph) (partitioned : Bool) : List (String × String) :=
  let numbered (name : String) (columns : List String) (tables : List Table) :=
    tables.zipIdx.map fun t => (name ++ "_" ++ toString t.2 ++ ".csv", t.1.text columns)
  if partitioned then
    numbered "nodes" nodeHeading g.nodePartition ++ numbered "edges" edgeHeading g.edgePartition
  else
    [("nodes.csv", g.nodeTable.text nodeHeading), ("edges.csv", g.edgeTable.text edgeHeading)]

section

variable {m : Type → Type} [Monad m] (storage : Storage m)

/-- Writes a file, or fails. -/
def writeOrFail (path content : String) : ExceptT BuildError m String := do
  if ← storage.write path content then return path else throw (.unwritable path)

/-- Writes the files of a graph that a plan asks for, and tells their paths. -/
def writeGraph (plan : BuildPlan) (g : Graph) : ExceptT BuildError m (List String) := do
  let records ← plan.records.toList.mapM fun path => writeOrFail storage path g.toClosedLines
  let tables ← match plan.tables with
    | none => pure []
    | some folder => do
      if !(← storage.makeFolder folder) then throw (.unwritable folder)
      (g.tableFiles plan.partitioned).mapM fun f => writeOrFail storage (joinPath folder f.1) f.2
  return records ++ tables

/-- Carries out a plan. -/
def build (config : Config) (plan : BuildPlan) : ExceptT BuildError m BuildSummary := do
  let strategy := config.endpoints.strategy .empty
  match ← storage.read? plan.input with
  | none => throw (.unreadable plan.input)
  | some text =>
    match Graph.empty.readText strategy text with
    | (_, .error e) => throw (.malformed e)
    | (read, .ok reading) =>
      let merged := read.unifySynonyms strategy config.synonyms
      let g := if plan.merge then merged.1 else read
      let files ← writeGraph storage plan g
      return { reading, synonyms := if plan.merge then some merged.2 else none
               nodes := g.nodeCount, edges := g.edgeCount, files }

end

end PropertyGraph

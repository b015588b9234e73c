/-
The configuration: one section per activity, each with defaults.
-/
import PropertyGraph.Cypher.Matching
import PropertyGraph.Graph.Endpoints
import PropertyGraph.Graph.Synonyms
import PropertyGraph.Guard.Verdict

namespace PropertyGraph

/-- How the graph database is reached. -/
structure ServerConfig where
  uri : String := "bolt://localhost:7687"
  user : String := "neo4j"
  password : String := ""
  maxConnections : Nat := 16
  fetchSize : Nat := 256
deriving DecidableEq

/-- All settings. -/
structure Config where
  guard : GuardConfig := {}
  matching : MatchConfig := {}
  synonyms : SynonymConfig := {}
  endpoints : EndpointConfig := {}
  server : ServerConfig := {}
deriving DecidableEq

/-- Why settings do not go together. -/
inductive ConfigFault where
  | emptyVariablePrefix
  | equalVariablePrefixes (name : String)
  | emptySynonymRelation
deriving DecidableEq

/-- The fault in words. -/
def ConfigFault.message : ConfigFault → String
  | emptyVariablePrefix =>
    "Invalid configuration: compiler.node_prefix and compiler.relation_prefix must not be empty"
  | equalVariablePrefixes name =>
    "Invalid configuration: compiler.node_prefix and compiler.relation_prefix are both '" ++ name ++
      "'"
  | emptySynonymRelation => "Invalid configuration: merge.relation must not be empty"

/-- The first fault of a configuration. -/
def Config.fault? (c : Config) : Option ConfigFault :=
  if c.matching.nodePrefix = "" ∨ c.matching.relationPrefix = "" then some .emptyVariablePrefix
  else if c.matching.nodePrefix = c.matching.relationPrefix then
    some (.equalVariablePrefixes c.matching.nodePrefix)
  else if c.synonyms.relation = "" then some .emptySynonymRelation
  else none

end PropertyGraph

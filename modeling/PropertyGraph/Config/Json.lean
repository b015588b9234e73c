/-
Configurations as JSON.

A field that is missing has its default; a section may also be the array of its
fields.  Every section is read by a function that is given readers for the
scalar types, so that sources with laxer scalars share it.
-/
import PropertyGraph.Config.Basic
import PropertyGraph.Json.Printer

namespace PropertyGraph

open Json (Tree Fields)

/-- How the scalars of a configuration are read. -/
structure ScalarReader where
  bool? : Tree → Option Bool
  int64? : Tree → Option Int64
  /-- A natural number of that many bits. -/
  nat? : Nat → Tree → Option Nat
  text? : Tree → Option String
  value? : Tree → Option Value
  /-- The declared fields of a record. -/
  record? : List String → Tree → Option Fields

/-- Scalars as they are written in JSON. -/
def ScalarReader.json : ScalarReader where
  bool? := Tree.bool?
  int64? := Tree.int64?
  nat? bits := Tree.natBelow? (Nat.pow 2 bits)
  text? := Tree.text?
  value? := Value.ofTree?
  record? := Tree.record?

namespace ScalarReader

variable (r : ScalarReader)

/-- A list of texts. -/
def texts? : Tree → Option (List String) := Tree.list? r.text?

/-- The guard's section. -/
def guard? (t : Tree) : Option GuardConfig := do
  let f ← r.record? ["limit"] t
  let d : GuardConfig := {}
  return { limit := ← f.withDefault "limit" d.limit r.int64? }

/-- Values that stand for no condition. -/
def dontCare? (t : Tree) : Option DontCare := do
  let f ← r.record? ["property", "values"] t
  return {
    property := ← f.required "property" r.text?
    values := ← f.required "values" (Tree.list? r.value?) }

/-- The compiler's section. -/
def matching? (t : Tree) : Option MatchConfig := do
  let f ← r.record? ["use_where", "use_labels", "use_directions", "node_prefix", "relation_prefix",
    "returns", "non_conditionals"] t
  let d : MatchConfig := {}
  return {
    useWhere := ← f.withDefault "use_where" d.useWhere r.bool?
    useLabels := ← f.withDefault "use_labels" d.useLabels r.bool?
    useDirections := ← f.withDefault "use_directions" d.useDirections r.bool?
    nodePrefix := ← f.withDefault "node_prefix" d.nodePrefix r.text?
    relationPrefix := ← f.withDefault "relation_prefix" d.relationPrefix r.text?
    returns := ← f.withDefault "returns" d.returns r.texts?
    dontCare := ← f.withDefault "non_conditionals" d.dontCare
      (Tree.list? r.dontCare?) }

/-- The section on merging synonyms. -/
def synonyms? (t : Tree) : Option SynonymConfig := do
  let f ← r.record? ["relation", "rank_property"] t
  let d : SynonymConfig := {}
  return {
    relation := ← f.withDefault "relation" d.relation r.text?
    rankProperty := ← f.withDefault "rank_property" d.rankProperty r.text? }

/-- A rule on the ends of a relation. -/
def endpointRule? (t : Tree) : Option EndpointRule := do
  let f ← r.record? ["relation", "source", "target"] t
  return {
    relation := ← f.required "relation" r.text?
    source := ← f.withDefault "source" [] r.texts?
    target := ← f.withDefault "target" [] r.texts? }

/-- The section on missing ends of edges. -/
def endpoints? (t : Tree) : Option EndpointConfig := do
  let f ← r.record? ["carry", "rules"] t
  let d : EndpointConfig := {}
  return {
    carry := ← f.withDefault "carry" d.carry r.texts?
    rules := ← f.withDefault "rules" d.rules (Tree.list? r.endpointRule?) }

/-- The section on the graph database. -/
def server? (t : Tree) : Option ServerConfig := do
  let f ← r.record? ["uri", "user", "password", "max_connections", "fetch_size"] t
  let d : ServerConfig := {}
  return {
    uri := ← f.withDefault "uri" d.uri r.text?
    user := ← f.withDefault "user" d.user r.text?
    password := ← f.withDefault "password" d.password r.text?
    maxConnections := ← f.withDefault "max_connections" d.maxConnections (r.nat? 32)
    fetchSize := ← f.withDefault "fetch_size" d.fetchSize (r.nat? 64) }

/-- All sections. -/
def config? (t : Tree) : Option Config := do
  let f ← r.record? ["query", "compiler", "merge", "inference", "neo4j"] t
  return {
    guard := ← f.withDefault "query" {} r.guard?
    matching := ← f.withDefault "compiler" {} r.matching?
    synonyms := ← f.withDefault "merge" {} r.synonyms?
    endpoints := ← f.withDefault "inference" {} r.endpoints?
    server := ← f.withDefault "neo4j" {} r.server? }

end ScalarReader

/-- The configuration that a text writes. -/
def Config.parse? (s : String) : Option Config := (Tree.read? s).bind ScalarReader.json.config?

namespace MatchConfig

/-- The JSON form. -/
def toJson (c : MatchConfig) : Json :=
  .object [("use_where", .bool c.useWhere), ("use_labels", .bool c.useLabels),
    ("use_directions", .bool c.useDirections), ("node_prefix", .text c.nodePrefix),
    ("relation_prefix", .text c.relationPrefix), ("returns", .texts c.returns),
    ("non_conditionals", .array (c.dontCare.map fun rule =>
      .object [("property", .text rule.property),
        ("values", .array (rule.values.map Value.toJson))]))]

end MatchConfig

namespace EndpointConfig

/-- The JSON form. -/
def toJson (c : EndpointConfig) : Json :=
  .object [("carry", .texts c.carry),
    ("rules", .array (c.rules.map fun rule =>
      .object [("relation", .text rule.relation), ("source", .texts rule.source),
        ("target", .texts rule.target)]))]

end EndpointConfig

namespace Config

/-- The JSON form. -/
def toJson (c : Config) : Json :=
  .object [("query", .object [("limit", .int c.guard.limit.toInt)]),
    ("compiler", c.matching.toJson),
    ("merge", .object [("relation", .text c.synonyms.relation),
      ("rank_property", .text c.synonyms.rankProperty)]),
    ("inference", c.endpoints.toJson),
    ("neo4j", .object [("uri", .text c.server.uri), ("user", .text c.server.user),
      ("password", .text c.server.password), ("max_connections", .nat c.server.maxConnections),
      ("fetch_size", .nat c.server.fetchSize)])]

end Config

end PropertyGraph

/-
Telling what the missing ends of an edge are like by rules.

A rule names a relation and the labels of its two ends.  An end's properties are
its lemma, where a lexicon knows one, the carried properties of the edge, and
the mark of what the graph has made up.
-/
import PropertyGraph.Graph.Basic

namespace PropertyGraph

/-- The labels of the two ends of a relation. -/
structure EndpointRule where
  relation : String
  source : List String := []
  target : List String := []
deriving DecidableEq

/-- The rules, and the properties that an edge hands on to its ends. -/
structure EndpointConfig where
  carry : List String := ["annotator", "line_id"]
  rules : List EndpointRule := []
deriving DecidableEq

namespace EndpointConfig

/-- The rule of a relation; of several, the last. -/
def rule? (c : EndpointConfig) (relation : String) : Option EndpointRule :=
  c.rules.reverse.find? fun r => r.relation = relation

/-- The properties of an end. -/
def endProperties (c : EndpointConfig) (lexicon : OrderedMap NodeId String) (id : NodeId)
    (properties : Properties) : Properties :=
  let known : Properties := match lexicon.get? id with
    | some lemmaText => Properties.set .empty "lemma" (.text lemmaText)
    | none => .empty
  let carried := c.carry.foldl (fun m key =>
    match properties.get? key with
    | some p => m.insert key p
    | none => m) known
  carried.set autoKey (.boolean true)

/-- The strategy that follows the rules. -/
def strategy (c : EndpointConfig) (lexicon : OrderedMap NodeId String) : EndpointStrategy :=
  fun k properties =>
    { startLabels := (c.rule? k.label).elim [] EndpointRule.source
      finishLabels := (c.rule? k.label).elim [] EndpointRule.target
      startProperties := c.endProperties lexicon k.start properties
      finishProperties := c.endProperties lexicon k.finish properties }

end EndpointConfig

end PropertyGraph

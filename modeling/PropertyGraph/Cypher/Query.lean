/-
Match queries as data, and their text.

A query is a list of fragments to match (a path of two nodes, or a node), a list
of conditions and a list of what to return.
-/
import PropertyGraph.Cypher.Literal
import PropertyGraph.Property.Map

namespace PropertyGraph.Cypher

/-- A node to match: its variable name, labels, and properties in place. -/
structure NodePattern where
  name : String
  labels : List String
  properties : List (String × Property)
deriving DecidableEq

/-- A relationship to match: its variable name, its type unless any will do, and
whether its direction counts. -/
structure RelationPattern where
  name : String
  type : Option String
  directed : Bool
deriving DecidableEq

/-- A part of what is matched. -/
inductive Fragment where
  | path (source : NodePattern) (relation : RelationPattern) (target : NodePattern)
  | node (pattern : NodePattern)
deriving DecidableEq

/-- A property that a matched node must have. -/
structure Condition where
  name : String
  key : String
  property : Property
deriving DecidableEq

/-- A match query. -/
structure Query where
  fragments : List Fragment
  conditions : List Condition
  returns : List String
deriving DecidableEq

/-- The text of a node pattern. -/
def NodePattern.text (p : NodePattern) : String :=
  let labels := String.join (p.labels.map fun l => ":" ++ quoteName l)
  let properties :=
    if p.properties.isEmpty then ""
    else " \x7b" ++
      ", ".intercalate (p.properties.map fun e => quoteName e.1 ++ ":" ++ propertyText e.2) ++
      "\x7d"
  "(" ++ quoteName p.name ++ labels ++ properties ++ ")"

/-- The text of a relationship pattern. -/
def RelationPattern.text (p : RelationPattern) : String :=
  "-[" ++ quoteName p.name ++ p.type.elim "" (fun t => ":" ++ quoteName t) ++
    if p.directed then "]->" else "]-"

/-- The text of a fragment. -/
def Fragment.text : Fragment → String
  | path source relation target => source.text ++ relation.text ++ target.text
  | node p => p.text

/-- The text of a condition. -/
def Condition.text (c : Condition) : String :=
  quoteName c.name ++ "." ++ quoteName c.key ++ " = " ++ propertyText c.property

/-- The text of a query.  Conditions are left out where there are none, and
everything is returned where nothing is chosen. -/
def Query.text (q : Query) : String :=
  let conditions :=
    if q.conditions.isEmpty then ""
    else " WHERE " ++ " AND ".intercalate (q.conditions.map Condition.text)
  let returns := if q.returns.isEmpty then "*" else ", ".intercalate q.returns
  "MATCH " ++ ", ".intercalate (q.fragments.map Fragment.text) ++ conditions ++ " RETURN " ++
    returns

end PropertyGraph.Cypher

/-
Identifiers of nodes and edges.

A node is named by an integer or by a text; `1` and `"1"` are two names.  An edge
is named by its triple of start, label and end.
-/
import PropertyGraph.Json.Fields

namespace PropertyGraph

/-- The name of a node. -/
inductive NodeId where
  | int (n : Int64)
  | text (s : String)
deriving DecidableEq, Inhabited

namespace NodeId

/-- The plain text. -/
def display : NodeId → String
  | int n => toString n.toInt
  | text s => s

/-- The JSON form. -/
def toJson : NodeId → Json
  | int n => .int n.toInt
  | text s => .text s

/-- The name that a JSON value is: an integer of sixty-four bits or a text. -/
def ofJson? : Json → Option NodeId
  | .int n => (Text.within 64 n).map fun n => int (Int64.ofInt n)
  | .text s => some (text s)
  | _ => none

/-- The name that a JSON tree writes. -/
def ofTree? (t : Json.Tree) : Option NodeId := t.value?.bind ofJson?

/-- The order of names: integers by value, then texts by code points. -/
def le : NodeId → NodeId → Bool
  | int m, int n => m.toInt ≤ n.toInt
  | int _, text _ => true
  | text _, int _ => false
  | text s, text t => s ≤ t

end NodeId

/-- The name of an edge. -/
structure EdgeKey where
  start : NodeId
  label : String
  finish : NodeId
deriving DecidableEq, Inhabited

namespace EdgeKey

/-- The triple with its ends exchanged. -/
def reversed (k : EdgeKey) : EdgeKey := ⟨k.finish, k.label, k.start⟩

/-- Whether a node is one of the ends. -/
def touches (k : EdgeKey) (id : NodeId) : Bool := k.start = id || k.finish = id

/-- The arrow notation. -/
def display (k : EdgeKey) : String :=
  "(" ++ k.start.display ++ ")-[" ++ k.label ++ "]->(" ++ k.finish.display ++ ")"

/-- The JSON form. -/
def toJson (k : EdgeKey) : Json :=
  .object [("start", k.start.toJson), ("label", .text k.label), ("end", k.finish.toJson)]

end EdgeKey

end PropertyGraph

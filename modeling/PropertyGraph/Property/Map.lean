/-
Property maps and the rule by which updates merge into them.

`Properties.merge` applies the rule key by key: an absent key is set, a present
one absorbs the incoming values.  `Properties.promotions` lists the keys whose
single value thereby became a list.
-/
import PropertyGraph.Property.Basic

namespace PropertyGraph

/-- Properties by key, in the order in which the keys came. -/
abbrev Properties := OrderedMap String Property

namespace Properties

/-- The map with a scalar under a key, whatever was there. -/
def set (m : Properties) (key : String) (v : Value) : Properties := m.insert key (.single v)

/-- The value under a key that holds just one. -/
def value? (m : Properties) (key : String) : Option Value := (m.get? key).bind Property.single?

/-- The map with one incoming property merged in. -/
def mergeEntry (m : Properties) (key : String) (p : Property) : Properties :=
  match m.get? key with
  | none => m.insert key p
  | some old => m.insert key (old.absorbAll p.values).1

/-- The map with every incoming property merged in. -/
def merge (m incoming : Properties) : Properties :=
  incoming.entries.foldl (fun m e => m.mergeEntry e.1 e.2) m

/-- The keys whose single value becomes a list when the incoming properties are
merged in. -/
def promotions (m incoming : Properties) : List String :=
  (incoming.entries.filter fun e =>
    (m.get? e.1).any fun old => (old.absorbAll e.2.values).2).map Prod.fst

/-- Equality of maps, whatever the order of their keys. -/
def same (m n : Properties) : Bool :=
  m.size = n.size && m.entries.all fun e => (n.get? e.1).any e.2.same

/-- The properties that the members of a JSON object describe; members that
describe none are dropped. -/
def ofMembers (members : List (String × Json)) : Properties :=
  OrderedMap.ofList (members.filterMap fun m => (Property.ofJson? m.2).map fun p => (m.1, p))

/-- The properties that a JSON value describes: none unless it is an object. -/
def ofJson : Json → Properties
  | .object members => ofMembers members
  | _ => .empty

/-- The properties that a JSON tree writes, every member of which must be a
property. -/
def ofTree? : Json.Tree → Option Properties
  | .object members =>
    (members.mapM fun m => (Property.ofTree? m.2).map fun p => (m.1, p)).map OrderedMap.ofList
  | _ => none

/-- The JSON object. -/
def toJson (m : Properties) : Json := .object (m.entries.map fun e => (e.1, e.2.toJson))

end Properties

end PropertyGraph

/-
Cells of result rows as the database sends them, and their text.

Some cells have no form in JSON where they stand; they are shown by
`Cell.description`, which spells out what a cell is made of.
-/
import PropertyGraph.Double.Layout
import PropertyGraph.Text.Visible

namespace PropertyGraph

/-- A cell of a result row.  An unbound relation is one without its ends, as the
parts of a path are sent. -/
inductive Cell where
  | null
  | boolean (b : Bool)
  | integer (n : Int64)
  | float (x : Double)
  | text (s : String)
  | list (items : List Cell)
  | map (entries : List (String × Cell))
  | node (id : Int64) (labels : List Cell) (properties : List (String × Cell))
  | relation (id start finish : Int64) (label : String) (properties : List (String × Cell))
  | unbound (id : Int64) (label : String) (properties : List (String × Cell))
  | path (nodes relations indices : List Cell)
  | point (system : Int64) (x y : Double)
deriving Inhabited

namespace Cell

/-! ### Descriptions -/

/-- A character inside the quotes of a description: what has no shape of its own
is given by its code point. -/
def describeChar (c : Char) : List Char :=
  if c = '"' then ['\\', '"']
  else if c = '\\' then ['\\', '\\']
  else if c = '\n' then ['\\', 'n']
  else if c = '\r' then ['\\', 'r']
  else if c = '\t' then ['\\', 't']
  else if c = '\x00' then ['\\', '0']
  else if Text.isVisible c then [c]
  else '\\' :: 'u' :: '\x7b' :: Nat.toDigits 16 c.toNat ++ ['\x7d']

/-- A text in the quotes of a description. -/
def describeText (s : String) : String :=
  String.ofList ('"' :: s.toList.flatMap describeChar ++ ['"'])

/-- A record in a description: its name and its fields. -/
def describeRecord (name : String) (fields : List (String × String)) : String :=
  name ++ " \x7b " ++ ", ".intercalate (fields.map fun f => f.1 ++ ": " ++ f.2) ++ " \x7d"

/-- A record of one field in a description. -/
def describeBox (name value : String) : String := describeRecord name [("value", value)]

/-- An integer in a description. -/
def describeInteger (n : Int64) : String := describeBox "BoltInteger" (toString n.toInt)

/-- A float in a description. -/
def describeFloat (x : Double) : String := describeBox "BoltFloat" (Double.Layout.literal.text x)

/-- A text in a description. -/
def describeString (s : String) : String := describeBox "BoltString" (describeText s)

/-- A list in a description, from the descriptions of its items. -/
def describeList (items : List String) : String :=
  describeBox "BoltList" ("[" ++ ", ".intercalate items ++ "]")

/-- A map in a description, from the descriptions of its entries. -/
def describeMap (entries : List String) : String :=
  describeBox "BoltMap" ("\x7b" ++ ", ".intercalate entries ++ "\x7d")

mutual

/-- What a cell is made of. -/
def description : Cell → String
  | null => "Null(BoltNull)"
  | boolean b => "Boolean(" ++ describeBox "BoltBoolean" (if b then "true" else "false") ++ ")"
  | integer n => "Integer(" ++ describeInteger n ++ ")"
  | float x => "Float(" ++ describeFloat x ++ ")"
  | text s => "String(" ++ describeString s ++ ")"
  | list items => "List(" ++ describeList (descriptions items) ++ ")"
  | map entries => "Map(" ++ describeMap (entryDescriptions entries) ++ ")"
  | node id labels properties =>
    "Node(" ++ describeRecord "BoltNode" [("id", describeInteger id),
      ("labels", describeList (descriptions labels)),
      ("properties", describeMap (entryDescriptions properties))] ++ ")"
  | relation id start finish label properties =>
    "Relation(" ++ describeRecord "BoltRelation" [("id", describeInteger id),
      ("start_node_id", describeInteger start), ("end_node_id", describeInteger finish),
      ("typ", describeString label),
      ("properties", describeMap (entryDescriptions properties))] ++ ")"
  | unbound id label properties =>
    "UnboundedRelation(" ++ describeRecord "BoltUnboundedRelation" [("id", describeInteger id),
      ("typ", describeString label),
      ("properties", describeMap (entryDescriptions properties))] ++ ")"
  | path nodes relations indices =>
    "Path(" ++ describeRecord "BoltPath" [
      ("nodes", describeList (descriptions nodes)),
      ("rels", describeList (descriptions relations)),
      ("indices", describeList (descriptions indices))] ++ ")"
  | point system x y =>
    "Point2D(" ++ describeRecord "BoltPoint2D" [("sr_id", describeInteger system),
      ("x", describeFloat x), ("y", describeFloat y)] ++ ")"

/-- The descriptions of all cells of a list. -/
def descriptions : List Cell → List String
  | [] => []
  | c :: cs => description c :: descriptions cs

/-- The descriptions of all entries. -/
def entryDescriptions : List (String × Cell) → List String
  | [] => []
  | (k, c) :: es => (describeString k ++ ": " ++ description c) :: entryDescriptions es

end

end Cell

end PropertyGraph

/-
JSON text as it is written: trees with repeated members and unreadable leaves.

`Tree.read?` folds the tokens of a text with an explicit stack of open
containers.  A tree keeps what a plain value loses: members of one name stand
side by side, and a part that is well written but has no value (a numeral beyond
all doubles, an unpaired half of a surrogate pair, a container inside 127
others) is the leaf `Tree.unreadable`.  A part that nobody looks at may be
unreadable; `Tree.value?` reads all of a tree.
-/
import PropertyGraph.Json.Token
import PropertyGraph.OrderedMap

namespace PropertyGraph.Json

/-- JSON as written. -/
inductive Tree where
  | null
  | bool (b : Bool)
  | int (n : Int)
  | float (x : Double)
  | text (s : String)
  | array (items : List Tree)
  | object (members : List (String × Tree))
  | unreadable
deriving Inhabited

namespace Tree

/-! ### Reading -/

/-- An open container: the items or members complete so far, last first, and
for an object the name that waits for its value. -/
inductive Frame where
  | array (items : List Tree)
  | object (members : List (Option String × Tree)) (key : Option String)

/-- Where in the grammar the reader stands, inside which open containers. -/
inductive State where
  /-- A value has to follow. -/
  | value (frames : List Frame)
  /-- An array has been opened. -/
  | firstItem (frames : List Frame)
  /-- An object has been opened. -/
  | firstKey (frames : List Frame)
  /-- A comma has been read in an object. -/
  | key (members : List (Option String × Tree)) (frames : List Frame)
  /-- A name has been read in an object. -/
  | colon (members : List (Option String × Tree)) (key : Option String) (frames : List Frame)
  /-- A value is complete. -/
  | after (value : Tree) (frames : List Frame)

/-- The number of containers that may stand around each other. -/
def maxDepth : Nat := 127

/-- A closed container, inside the open ones. -/
def close (t : Tree) (frames : List Frame) : State :=
  .after (if frames.length < maxDepth then t else .unreadable) frames

/-- A closed array, from its items, last first. -/
def closeArray (items : List Tree) (frames : List Frame) : State :=
  close (.array items.reverse) frames

/-- A closed object, from its members, last first; unreadable if a name is. -/
def closeObject (members : List (Option String × Tree)) (frames : List Frame) : State :=
  match members.reverse.mapM fun m => m.1.map fun k => (k, m.2) with
  | some readable => close (.object readable) frames
  | none => .after .unreadable frames

/-- The leaf of a scalar value. -/
def ofScalar : Option Json → Tree
  | some (.int n) => .int n
  | some (.float x) => .float x
  | _ => .unreadable

/-- Reads the first token of a value. -/
def State.start (frames : List Frame) : Token → Option State
  | .null => some (.after .null frames)
  | .bool b => some (.after (.bool b) frames)
  | .number v => some (.after (ofScalar v) frames)
  | .text (some s) => some (.after (.text s) frames)
  | .text none => some (.after .unreadable frames)
  | .openBracket => some (.firstItem frames)
  | .openBrace => some (.firstKey frames)
  | _ => none

/-- Reads a token. -/
def State.step : State → Token → Option State
  | .value frames, t => start frames t
  | .firstItem frames, .closeBracket => some (closeArray [] frames)
  | .firstItem frames, t => start (.array [] :: frames) t
  | .firstKey frames, .closeBrace => some (closeObject [] frames)
  | .firstKey frames, .text k => some (.colon [] k frames)
  | .key members frames, .text k => some (.colon members k frames)
  | .colon members k frames, .colon => some (.value (.object members k :: frames))
  | .after v (.array items :: frames), .comma => some (.value (.array (v :: items) :: frames))
  | .after v (.array items :: frames), .closeBracket => some (closeArray (v :: items) frames)
  | .after v (.object members k :: frames), .comma => some (.key ((k, v) :: members) frames)
  | .after v (.object members k :: frames), .closeBrace =>
    some (closeObject ((k, v) :: members) frames)
  | _, _ => none

/-- The tree of a text; none if the text is not JSON. -/
def read? (s : String) : Option Tree := do
  let tokens ← tokens? s.toList
  match ← tokens.foldlM State.step (.value []) with
  | .after t [] => some t
  | _ => none

/-! ### Values -/

mutual

/-- The value of a tree; none if a part is unreadable.  A repeated member keeps
its first place and takes its last value. -/
def value? : Tree → Option Json
  | null => some .null
  | bool b => some (.bool b)
  | int n => some (.int n)
  | float x => some (.float x)
  | text s => some (.text s)
  | array items => (values? items).map .array
  | object members => (memberValues? members).map fun ms => .object (OrderedMap.ofList ms).entries
  | unreadable => none

/-- The values of all trees of a list. -/
def values? : List Tree → Option (List Json)
  | [] => some []
  | t :: ts => do return (← value? t) :: (← values? ts)

/-- The values of all members. -/
def memberValues? : List (String × Tree) → Option (List (String × Json))
  | [] => some []
  | (k, t) :: ms => do return (k, ← value? t) :: (← memberValues? ms)

end

mutual

/-- A value as a tree. -/
def ofJson : Json → Tree
  | .null => null
  | .bool b => bool b
  | .int n => int n
  | .float x => float x
  | .text s => text s
  | .array items => array (ofJsons items)
  | .object members => object (ofMembers members)

/-- All values of a list as trees. -/
def ofJsons : List Json → List Tree
  | [] => []
  | v :: vs => ofJson v :: ofJsons vs

/-- All members as trees. -/
def ofMembers : List (String × Json) → List (String × Tree)
  | [] => []
  | (k, v) :: ms => (k, ofJson v) :: ofMembers ms

end

end Tree

/-- The value that a text writes; none if the text is not JSON or a part has no
value. -/
def parse? (s : String) : Option Json := do
  let t ← Tree.read? s
  t.value?

end PropertyGraph.Json

/-
JSON values.

Integers and floats are told apart, and the members of an object keep their
order.  `Json.get?` looks a member up.
-/
import PropertyGraph.Double.Basic

namespace PropertyGraph

/-- A JSON value.  A number written without a fraction and without an exponent
is an integer. -/
inductive Json where
  | null
  | bool (b : Bool)
  | int (n : Int)
  | float (x : Double)
  | text (s : String)
  | array (items : List Json)
  | object (members : List (String × Json))
deriving Inhabited

namespace Json

/-- The first member of that name. -/
def get? (key : String) : Json → Option Json
  | object members => (members.find? fun m => m.1 = key).map Prod.snd
  | _ => none

/-- An array of texts. -/
def texts (l : List String) : Json := array (l.map text)

/-- A natural number. -/
def nat (n : Nat) : Json := int n

/-- A value, or null in its absence. -/
def orNull {α : Type} (f : α → Json) : Option α → Json
  | none => null
  | some a => f a

end Json

end PropertyGraph

/-
Scalar property values.

Values are compared with `Value.same`, which compares floats as numbers: an
integer never equals a float, the two zeros agree, and a NaN agrees with
nothing.  A value has a JSON form, a plain text for table cells, and sometimes a
reading as an integer.
-/
import PropertyGraph.Double.Layout
import PropertyGraph.Json.Fields
import PropertyGraph.Text.Blank

namespace PropertyGraph

/-- A scalar: a truth value, an integer, a float or a text. -/
inductive Value where
  | boolean (b : Bool)
  | integer (n : Int64)
  | float (x : Double)
  | text (s : String)
deriving DecidableEq, Inhabited

namespace Value

/-- Equality of values of one kind, floats as numbers. -/
def same : Value → Value → Bool
  | boolean a, boolean b => a = b
  | integer m, integer n => m = n
  | float x, float y => x.same y
  | text s, text t => s = t
  | _, _ => false

theorem same_comm (v w : Value) : v.same w = w.same v := by
  cases v <;> cases w <;> simp only [same, Double.same_comm] <;> simp only [eq_comm]

theorem same_trans {u v w : Value} (huv : u.same v = true) (hvw : v.same w = true) :
    u.same w = true := by
  cases u <;> cases v <;> cases w <;> simp_all [same]
  exact Double.same_trans huv hvw

/-- Whether a list holds a value that is the same. -/
def isIn (v : Value) (vs : List Value) : Bool := vs.any fun w => w.same v

theorem isIn_eq_true_iff {v : Value} {vs : List Value} :
    v.isIn vs = true ↔ ∃ w ∈ vs, w.same v = true := List.any_eq_true

/-- Appends the values that are not the same as one before them. -/
def addDistinct (seen : List Value) (vs : List Value) : List Value :=
  vs.foldl (fun ws v => if v.isIn ws then ws else ws ++ [v]) seen

/-- The scalar that a JSON value is; an integer beyond sixty-four bits becomes a
float. -/
def ofJson? : Json → Option Value
  | .bool b => some (boolean b)
  | .int n =>
    match Text.within 64 n with
    | some n => some (integer (Int64.ofInt n))
    | none => some (float (Double.ofInt n))
  | .float x => some (float x)
  | .text s => some (text s)
  | _ => none

/-- The scalar that a JSON tree writes. -/
def ofTree? (t : Json.Tree) : Option Value := t.value?.bind ofJson?

/-- The JSON form. -/
def toJson : Value → Json
  | boolean b => .bool b
  | integer n => .int n.toInt
  | float x => if x.isFinite then .float x else .null
  | text s => .text s

/-- The plain text, as in a table cell: texts are not quoted. -/
def display : Value → String
  | boolean b => if b then "true" else "false"
  | integer n => toString n.toInt
  | float x => Double.Layout.plain.text x
  | text s => s

/-- The text that a value is. -/
def asText? : Value → Option String
  | text s => some s
  | _ => none

/-- The integer that a value is, or that a text writes between blanks. -/
def asInteger? : Value → Option Int64
  | integer n => some n
  | text s => Text.int64OfDigits? (Text.trim s.toList)
  | _ => none

/-- The name of the kind of value. -/
def kind : Value → String
  | boolean _ => "boolean"
  | integer _ => "integer"
  | float _ => "float"
  | text _ => "string"

end Value

end PropertyGraph

/-
A stored property: one value, or the list of values that updates have given it.

`Property.absorb` folds a submitted value in.  A single value stays single while
the same value comes again, becomes a list when another comes, and a list grows
by the values it does not hold.
-/
import PropertyGraph.Property.Value

namespace PropertyGraph

/-- One value, or several in the order of their submission. -/
inductive Property where
  | single (v : Value)
  | several (vs : List Value)
deriving DecidableEq, Inhabited

namespace Property

/-- The values held. -/
def values : Property → List Value
  | single v => [v]
  | several vs => vs

/-- Whether a list of values is held. -/
def isList : Property → Bool
  | single _ => false
  | several _ => true

/-- The value of a property that holds just one. -/
def single? : Property → Option Value
  | single v => some v
  | several _ => none

/-- The plain texts of the values with a separator between them. -/
def join (p : Property) (separator : String) : String :=
  separator.intercalate (p.values.map Value.display)

/-- The JSON form: lists become arrays. -/
def toJson : Property → Json
  | single v => v.toJson
  | several vs => .array (vs.map Value.toJson)

/-- Equality of properties, value by value. -/
def same : Property → Property → Bool
  | single v, single w => v.same w
  | several vs, several ws => vs.length = ws.length && (vs.zip ws).all fun p => p.1.same p.2
  | _, _ => false

/-- The property with a submitted value folded in, and whether that made a list
of a single value. -/
def absorb (p : Property) (v : Value) : Property × Bool :=
  match p with
  | single w => if w.same v then (single w, false) else (several [w, v], true)
  | several ws => (several (if v.isIn ws then ws else ws ++ [v]), false)

/-- The property with submitted values folded in one by one, and whether one of
them made a list of a single value. -/
def absorbAll (p : Property) : List Value → Property × Bool
  | [] => (p, false)
  | v :: vs =>
    let (q, promoted) := p.absorb v
    let (r, promotedLater) := q.absorbAll vs
    (r, promoted || promotedLater)

/-- The property of a list of distinct values: none if it is empty, single if it
has one. -/
def ofDistinct? : List Value → Option Property
  | [] => none
  | [v] => some (single v)
  | vs => some (several vs)

/-- The property that a JSON value describes: a scalar, or the distinct values
of an array of scalars.  Nothing else describes a property. -/
def ofJson? : Json → Option Property
  | .array items => (items.mapM Value.ofJson?).bind fun vs => ofDistinct? (Value.addDistinct [] vs)
  | v => (Value.ofJson? v).map single

/-- The property that a JSON tree writes: a scalar, or an array of scalars just
as it stands. -/
def ofTree? : Json.Tree → Option Property
  | .array items => (items.mapM Value.ofTree?).map several
  | t => (Value.ofTree? t).map single

end Property

end PropertyGraph

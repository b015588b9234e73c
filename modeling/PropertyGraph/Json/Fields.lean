/-
Reading records with known fields from JSON trees.

A record is an object, or an array of its fields in the order in which they are
declared.  `Tree.fields?` finds the declared fields either way: members of other
names are passed over, a declared field must not be repeated, and an array must
not be longer than the declaration.
-/
import PropertyGraph.Json.Tree

namespace PropertyGraph.Json

/-- The declared fields that are present, under their declared names. -/
structure Fields where
  present : List (String × Tree)

namespace Fields

/-- The tree of a field. -/
def get? (f : Fields) (name : String) : Option Tree :=
  (f.present.find? fun m => m.1 = name).map Prod.snd

/-- A field that has to be present. -/
def required {α : Type} (f : Fields) (name : String) (decode : Tree → Option α) : Option α :=
  (f.get? name).bind decode

/-- A field with a default for its absence. -/
def withDefault {α : Type} (f : Fields) (name : String) (default : α)
    (decode : Tree → Option α) : Option α :=
  match f.get? name with
  | none => some default
  | some t => decode t

end Fields

namespace Tree

/-- The declared fields of a record, each declared by its names, the first of
which is its own. -/
def fields? (declared : List (List String)) : Tree → Option Fields
  | object members => do
    let found ← declared.mapM fun names =>
      match members.filter fun m => names.contains m.1 with
      | [] => some []
      | [m] => some [(names.headD "", m.2)]
      | _ => none
    return ⟨found.flatten⟩
  | array items =>
    if items.length ≤ declared.length then
      some ⟨(declared.map (List.headD · "")).zip items⟩
    else none
  | _ => none

/-- The declared fields of a record whose fields have one name each. -/
def record? (declared : List String) (t : Tree) : Option Fields :=
  t.fields? (declared.map fun name => [name])

def text? : Tree → Option String
  | text s => some s
  | _ => none

def bool? : Tree → Option Bool
  | bool b => some b
  | _ => none

/-- An integer of sixty-four bits. -/
def int64? : Tree → Option Int64
  | int n => (Text.within 64 n).map Int64.ofInt
  | _ => none

/-- A natural number below a bound. -/
def natBelow? (bound : Nat) : Tree → Option Nat
  | int n => if 0 ≤ n ∧ n < bound then some n.toNat else none
  | _ => none

/-- A list, item by item. -/
def list? {α : Type} (decode : Tree → Option α) : Tree → Option (List α)
  | array items => items.mapM decode
  | _ => none

/-- A value, or null for its absence. -/
def nullable? {α : Type} (decode : Tree → Option α) : Tree → Option (Option α)
  | null => some none
  | t => (decode t).map some

end Tree

end PropertyGraph.Json

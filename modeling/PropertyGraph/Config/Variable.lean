/-
Environment variables as settings.

A variable whose name starts with `ANNOGRAPH__`, in any case, is a setting; in
the rest of its name a double underscore stands before the next level.  The value
is a truth value, an integer, a float or a text, whichever reads it first.
-/
import PropertyGraph.Config.Setting
import PropertyGraph.Double.Reading
import PropertyGraph.Property.Value

namespace PropertyGraph.Variable

/-- What names of settings start with. -/
def start : List Char := "annograph__".toList

/-- A name with points in place of double underscores. -/
def pointed : List Char → List Char
  | '_' :: '_' :: cs => '.' :: pointed cs
  | c :: cs => c :: pointed cs
  | [] => []

/-- The path that a variable sets; none if it is no setting. -/
def path? (name : String) : Option (List Setting.Step) :=
  let lowered := name.toList.map Setting.lowerChar
  if start.isPrefixOf lowered then
    some (Setting.path (String.ofList (pointed (lowered.drop start.length))))
  else none

/-- The value of a variable. -/
def value (s : String) : Value :=
  let lowered := String.ofList (s.toList.map Char.toLower)
  if lowered = "true" then .boolean true
  else if lowered = "false" then .boolean false
  else
    match Text.int64OfDigits? s.toList with
    | some n => .integer n
    | none =>
      match Double.ofText? s.toList with
      | some x => .float x
      | none => .text s

/-- A value as written in a tree of settings. -/
def tree : Value → Json.Tree
  | .boolean b => .bool b
  | .integer n => .int n.toInt
  | .float x => .float x
  | .text s => .text s

/-- The settings that variables make. -/
def settings (env : List (String × String)) : List (List Setting.Step × Json.Tree) :=
  env.filterMap fun v => (path? v.1).map fun path => (path, tree (value v.2))

end PropertyGraph.Variable

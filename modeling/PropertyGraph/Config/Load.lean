/-
Configurations from a file, with environment variables over it.

A setting need not have the type of its field: numbers, truth values and texts
are turned into one another where that makes sense.
-/
import PropertyGraph.Config.Json
import PropertyGraph.Config.Variable

namespace PropertyGraph

open Json (Tree)

namespace Value

/-! ### Settings of another type -/

/-- A text in lower case, as far as it is ASCII. -/
def lowered (s : String) : String := String.ofList (s.toList.map Char.toLower)

/-- The truth value that a word stands for. -/
def switch? (s : String) : Option Bool :=
  if ["true", "on", "yes"].contains (lowered s) then some true
  else if ["false", "off", "no"].contains (lowered s) then some false
  else none

/-- The integer nearest to a double within bounds; zero where there is none. -/
def clamped (low high : Int) (x : Double) : Int :=
  if x.isNaN then 0
  else if x.isFinite then max low (min high x.round)
  else if x.isNegative then low
  else high

/-- A setting as a truth value. -/
def settingBool? : Value → Option Bool
  | boolean b => some b
  | integer n => some (n ≠ 0)
  | float x => some (!x.isZero)
  | text s => if s = "1" then some true else if s = "0" then some false else switch? s

/-- A setting as an integer. -/
def settingInt? : Value → Option Int64
  | boolean b => some (if b then 1 else 0)
  | integer n => some n
  | float x => some (.ofInt (clamped (-(Nat.pow 2 63)) (Nat.pow 2 63 - 1) x))
  | text s =>
    match switch? s with
    | some b => some (if b then 1 else 0)
    | none => Text.int64OfDigits? s.toList

/-- A setting as a natural number below `2 ^ 64`. -/
def settingNat? : Value → Option Nat
  | boolean b => some (if b then 1 else 0)
  | integer n => if 0 ≤ n then some n.toInt.toNat else none
  | float x => some (clamped 0 (Nat.pow 2 64 - 1) x).toNat
  | text s =>
    match switch? s with
    | some b => some (if b then 1 else 0)
    | none => (Text.natOfSigned? s.toList).filter (· < Nat.pow 2 64)

end Value

/-- Scalars of any type.  A number has to fit its field after the turn, and a list
of fields may go on after the last of them. -/
def ScalarReader.lenient : ScalarReader where
  bool? t := (Value.ofTree? t).bind Value.settingBool?
  int64? t := (Value.ofTree? t).bind Value.settingInt?
  nat? bits t := ((Value.ofTree? t).bind Value.settingNat?).filter (· < Nat.pow 2 bits)
  text? t := (Value.ofTree? t).map Value.display
  value? := Value.ofTree?
  record? names
    | .array items => (Tree.array (items.take names.length)).record? names
    | t => t.record? names

/-- Why no configuration is loaded. -/
inductive LoadError where
  /-- The file is no JSON object, or a setting does not fit its field. -/
  | unreadable
  /-- Settings do not go together. -/
  | fault (f : ConfigFault)
deriving DecidableEq

namespace Config

/-- The settings that the text of a file makes. -/
def fileSettings? (s : String) : Option (List (List Setting.Step × Tree)) :=
  match Json.parse? s with
  | some (.object members) => some (members.map fun m => (Setting.path m.1, .ofJson m.2))
  | _ => none

/-- The configuration from the text of a file, if there is one, and environment
variables. -/
def load (file : Option String) (env : List (String × String)) : Except LoadError Config := do
  let settings ← match file with
    | none => pure []
    | some s =>
      match fileSettings? s with
      | some settings => pure settings
      | none => .error .unreadable
  let table := Setting.setAll (settings ++ Variable.settings env) (.object [])
  match ScalarReader.lenient.config? table with
  | none => .error .unreadable
  | some config =>
    match config.fault? with
    | some f => .error (.fault f)
    | none => .ok config

end Config

end PropertyGraph

/-
Settings by path, put over one another.

A path leads through tables by keys and through lists by positions.  What is set
later stands over what was set before: tables are merged member by member, and
anything else is replaced.  Keys that lead to a setting are kept in lower case, so
that their case does not count; tables inside a list are values and stay as they are.
-/
import PropertyGraph.Json.Fields

namespace PropertyGraph.Setting

open Json (Tree)

/-- A step of a path. -/
inductive Step where
  | key (name : String)
  /-- A position, counted from the end where it is negative. -/
  | position (index : Int)
deriving DecidableEq, Repr

/-! ### Keys -/

/-- A character of a key in lower case, as far as that is an ASCII letter.  Besides
the capitals of ASCII, the Kelvin sign has such a lower case. -/
def lowerChar (c : Char) : Char := if c = '\u212a' then 'k' else c.toLower

/-- A key in lower case. -/
def lowerKey (name : String) : String := String.ofList (name.toList.map lowerChar)

/-! ### Paths as text -/

/-- Whether a character can be part of a key in a path. -/
def isKeyChar (c : Char) : Bool := c.isAlphanum || c = ' ' || c = '_' || c = '-'

/-- The position that a text in brackets writes, blanks around it allowed. -/
def position? (s : List Char) : Option Int :=
  let isBlank (c : Char) : Bool := c = ' ' || c = '\t'
  let trimmed := ((s.dropWhile isBlank).reverse.dropWhile isBlank).reverse
  match trimmed with
  | '+' :: _ => none
  | digits => (Text.intOfDigits? digits).bind (Text.within 64)

/-- The steps that a text writes, after a key or at its start: a point and a key,
or a position in brackets.  The first argument bounds the number of steps. -/
def steps? : Nat → List Char → Option (List Step)
  | _, [] => some []
  | 0, _ => none
  | n + 1, c :: cs =>
    if c = '.' then
      let key := cs.takeWhile isKeyChar
      if key = [] then none
      else (steps? n (cs.dropWhile isKeyChar)).map (.key (String.ofList key) :: ·)
    else if c = '[' then
      match cs.dropWhile (· ≠ ']') with
      | ']' :: rest => do
        let index ← position? (cs.takeWhile (· ≠ ']'))
        return .position index :: (← steps? n rest)
      | _ => none
    else none

/-- The path that a text writes; a text that writes none is a key as a whole. -/
def path (s : String) : List Step := (steps? (s.length + 1) ('.' :: s.toList)).getD [.key s]

/-! ### Setting -/

/-- A table with a member changed, or added at the end.  Anything but a table is
taken as the empty one. -/
def setMember (name : String) (f : Option Tree → Tree) : Option Tree → Tree
  | some (.object members) =>
    if members.any (·.1 = name) then
      .object (members.map fun m => if m.1 = name then (name, f (some m.2)) else m)
    else .object (members ++ [(name, f none)])
  | _ => .object [(name, f none)]

/-- A list with an item changed, lengthened by nulls as far as needed.  Anything
but a list is taken as the empty one. -/
def setItem (index : Int) (f : Option Tree → Tree) (t : Option Tree) : Tree :=
  let items := match t with
    | some (.array items) => items
    | _ => []
  let place := if index < 0 then items.length - index.natAbs else index.toNat
  let padded := items ++ List.replicate (place + 1 - items.length) Tree.null
  .array (padded.modify place fun item => f (some item))

mutual

/-- A value put over what was there. -/
def overlay : Tree → Option Tree → Tree
  | .object members, old => overlayMembers members (old.getD (.object []))
  | value, _ => value

/-- Members put over what was there, one after another, under keys in lower case. -/
def overlayMembers : List (String × Tree) → Tree → Tree
  | [], t => t
  | (name, value) :: members, t =>
    overlayMembers members (setMember (lowerKey name) (fun old => overlay value old) (some t))

end

/-- A value set at a path: over what was there at a key, in place of what was
there at a position. -/
def set (value : Tree) : List Step → Option Tree → Tree
  | [], old => overlay value old
  | .key name :: path, old => setMember (lowerKey name) (set value path) old
  | [.position index], old => setItem index (fun _ => value) old
  | .position index :: path, old => setItem index (set value path) old

/-- A table with settings made one after another. -/
def setAll (settings : List (List Step × Tree)) (t : Tree) : Tree :=
  settings.foldl (fun t s => set s.2 s.1 (some t)) t

end PropertyGraph.Setting

/-
Files kept in memory.

A disk is a tree given by the places of its folders and files.  A place is the
list of names that lead to it from the root, which is a folder; a path is resolved
to a place step by step, and every step has to start from a folder.
-/
import PropertyGraph.OrderedMap
import PropertyGraph.Storage.Basic

namespace PropertyGraph

/-- The names that lead to a file or folder. -/
abbrev Place := List String

/-- Folders and files. -/
structure Disk where
  folders : List Place := []
  files : OrderedMap Place String := .empty

namespace Disk

/-- Whether there is a folder at a place. -/
def isFolder (d : Disk) (p : Place) : Bool := p = [] || d.folders.contains p

/-- How many bytes a name can have. -/
def maxNameSize : Nat := 255

/-- Whether a step of a path can be a name: it holds no null character and is not
too long. -/
def isName (s : String) : Bool := !s.toList.contains '\x00' && s.utf8ByteSize ≤ maxNameSize

/-- The place that a step leads to. -/
def step? (d : Disk) (p : Place) (name : String) : Option Place :=
  if !d.isFolder p || !isName name then none
  else if name = "" ∨ name = "." then some p
  else if name = ".." then if p = [] then none else some p.dropLast
  else some (p ++ [name])

/-- The steps of a path. -/
def pathSteps (path : String) : List String := (path.toList.splitOn '/').map String.ofList

/-- The place that a path leads to. -/
def resolve? (d : Disk) (path : String) : Option Place := (pathSteps path).foldlM d.step? []

/-- The text of the file at a path. -/
def read? (d : Disk) (path : String) : Option String := (d.resolve? path).bind d.files.get?

/-- The disk with a file written; none if a folder is there. -/
def write? (d : Disk) (path content : String) : Option Disk := do
  let p ← d.resolve? path
  if d.isFolder p then none else return { d with files := d.files.insert p content }

/-- The disk with a folder at a place; none if a file is there. -/
def addFolder? (d : Disk) (p : Place) : Option Disk :=
  if d.isFolder p then some d
  else if d.files.contains p then none
  else some { d with folders := d.folders ++ [p] }

/-- The disk with the folders of a path made, from a place on, as far as that is
possible, and whether it was. -/
def makeFolders (d : Disk) : Place → List String → Disk × Bool
  | _, [] => (d, true)
  | p, name :: names =>
    match d.step? p name with
    | none => (d, false)
    | some q =>
      match d.addFolder? q with
      | none => (d, false)
      | some d => makeFolders d q names

/-- The disk with the folder of a path made, and those that it lies in, as far as
that is possible, and whether it was.  A path whose last name is a point names the
folder before it from inside, so that this one has to be there; all that it lies in
is made. -/
def makeFolder (d : Disk) (path : String) : Disk × Bool :=
  let steps := (pathSteps path).filter (· ≠ "")
  if steps.getLast? = some "." then
    let (d, _) := d.makeFolders [] (steps.filter (· ≠ ".")).dropLast
    (d, (steps.foldlM d.step? []).any d.isFolder)
  else d.makeFolders [] steps

/-- The storage that keeps its files on a disk in the state. -/
def storage : Storage (StateM Disk) where
  read? path := do return (← get).read? path
  write path content := do
    match (← get).write? path content with
    | some d => set d; return true
    | none => return false
  makeFolder path := do
    let (d, made) := (← get).makeFolder path
    set d
    return made
  isFile path := do return ((← get).read? path).isSome

/-- A disk with files, in folders made for them. -/
def ofFiles (files : List (String × String)) : Disk :=
  files.foldl (fun d f =>
    let (d, _) := d.makeFolders [] (pathSteps f.1).dropLast
    (d.write? f.1 f.2).getD d) {}

/-- The path that leads to a place. -/
def pathOf (p : Place) : String := "/".intercalate p

/-- The files that an earlier disk does not have, or not with this content,
sorted by path. -/
def changedSince (d old : Disk) : List (String × String) :=
  let changed := d.files.entries.filter fun f => old.files.get? f.1 ≠ some f.2
  (changed.map fun f => (pathOf f.1, f.2)).mergeSort fun a b => a.1 ≤ b.1

end Disk

end PropertyGraph
